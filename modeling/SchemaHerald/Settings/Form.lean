import SchemaHerald.Schema
import SchemaHerald.Settings

/-!
# Value trees of settings, records and definitions

Settings, records and definitions are exchanged as value trees. A type is written as a record with
its fields in a fixed order, where a part that is absent is left out. It is read from a record,
where unknown fields do not matter, or from a list that gives the fields by position.

Three kinds of field are told apart. A *required* field must be there. A *defaulted* field may be
missing, but if it is there it must be of its type. An *optional* field may be missing or null; only
in a list must its place be taken.
-/
namespace SchemaHerald

/-- The fields of a value that is read as a record. -/
structure Fields where
  /-- The value of a field, if it is there. -/
  value? : String → Option Value
  /-- Whether the fields were given by position. -/
  positional : Bool

namespace Fields

/-- The first value under a name. -/
def lookup? (name : String) : List (String × Value) → Option Value
  | [] => none
  | (name', v) :: rest => if name = name' then some v else lookup? name rest

/-- Reads a value as a record with the named fields. -/
def ofValue? (names : List String) : Value → Option Fields
  | .record fields => some ⟨fun name => lookup? name fields, false⟩
  | .list xs =>
    if xs.length ≤ names.length then some ⟨fun name => lookup? name (names.zip xs), true⟩ else none
  | _ => none

variable {α : Type} (fields : Fields) (name : String) (read : Value → Option α)

/-- The value of a required field. -/
def required : Option α := (fields.value? name).bind read

/-- The value of a defaulted field. -/
def defaulted (default : α) : Option α :=
  match fields.value? name with
  | none => some default
  | some v => read v

/-- The value of an optional field. -/
def optional : Option (Option α) :=
  match fields.value? name with
  | none => if fields.positional then none else some none
  | some .null => some none
  | some v => (read v).map some

end Fields

/-- A field of a record, left out when there is no value. -/
def optionalField (name : String) : Option Value → List (String × Value)
  | some v => [(name, v)]
  | none => []

namespace Table

variable {α : Type}

/-- A table by name as a record. -/
def toValue (write : α → Value) (t : Table String α) : Value :=
  .record (t.entries.map fun e => (e.1, write e.2))

/-- Reads the values of all fields. -/
def readEntries? (read : Value → Option α) : List (String × Value) → Option (List (String × α))
  | [] => some []
  | (name, v) :: rest => do
    let a ← read v
    let more ← readEntries? read rest
    return (name, a) :: more

/-- Reads a record as a table by name. -/
def ofValue? (read : Value → Option α) : Value → Option (Table String α)
  | .record fields => (readEntries? read fields).map Table.ofList
  | _ => none

end Table

/-! ## Settings -/

namespace Backend

/-- A backend as a value tree; its options are always written. -/
def toValue (b : Backend) : Value :=
  .record [("name", .text b.name), ("config", b.options.toValue .text)]

/-- Reads a backend. -/
def ofValue? (v : Value) : Option Backend := do
  let fields ← Fields.ofValue? ["name", "config"] v
  return {
    name := ← fields.required "name" Value.text?
    options := ← fields.defaulted "config" (Table.ofValue? Value.text?) {} }

end Backend

namespace RegistryOptions

/-- Registry options as a value tree; the name is always written. -/
def toValue (o : RegistryOptions) : Value :=
  .record <| [("name", .text o.name)] ++
    optionalField "announceAddress" (o.announceAddress.map .text) ++
    optionalField "backend" (o.backend.map Backend.toValue)

/-- Reads registry options; without a name they are those of the registry `default`. -/
def ofValue? (v : Value) : Option RegistryOptions := do
  let fields ← Fields.ofValue? ["name", "announceAddress", "backend"] v
  return {
    name := ← fields.defaulted "name" Value.text? Settings.defaultRegistryName
    announceAddress := ← fields.optional "announceAddress" Value.text?
    backend := ← fields.optional "backend" Backend.ofValue? }

end RegistryOptions

namespace Identity

/-- An identity as a value tree. -/
def toValue (i : Identity) : Value :=
  .record <| optionalField "id" (i.id.map .text) ++
    optionalField "defaultRegistry" (i.defaultRegistry.map .text)

/-- Reads an identity. -/
def ofValue? (v : Value) : Option Identity := do
  let fields ← Fields.ofValue? ["id", "defaultRegistry"] v
  return {
    id := ← fields.optional "id" Value.text?
    defaultRegistry := ← fields.optional "defaultRegistry" Value.text? }

end Identity

namespace Limits

/-- Limits as a value tree. -/
def toValue (l : Limits) : Value :=
  .record <| optionalField "maxConcurrency" (l.maxConcurrency.map .ofNat) ++
    optionalField "timeoutSecs" (l.timeoutSecs.map .ofNat)

/-- Reads limits. -/
def ofValue? (v : Value) : Option Limits := do
  let fields ← Fields.ofValue? ["maxConcurrency", "timeoutSecs"] v
  return {
    maxConcurrency := ← fields.optional "maxConcurrency" Value.count?
    timeoutSecs := ← fields.optional "timeoutSecs" Value.count? }

end Limits

namespace Settings

/-- The registries as a field, left out when there are none. -/
def registriesField (s : Settings) : Option Value :=
  if s.registries.isEmpty then none else some (s.registries.toValue RegistryOptions.toValue)

/-- **Settings as a value tree.** -/
def toValue (s : Settings) : Value :=
  .record <| [("version", .text s.version)] ++
    optionalField "publisher" (s.publisher.map Identity.toValue) ++
    optionalField "registries" s.registriesField ++
    optionalField "publish" (s.publish.map Limits.toValue)

/-- **Reads settings** from a value tree. -/
def ofValue? (v : Value) : Option Settings := do
  let fields ← Fields.ofValue? ["version", "publisher", "registries", "publish"] v
  return {
    version := ← fields.required "version" Value.text?
    publisher := ← fields.optional "publisher" Identity.ofValue?
    registries := ← fields.defaulted "registries" (Table.ofValue? RegistryOptions.ofValue?) {}
    publish := ← fields.optional "publish" Limits.ofValue? }

end Settings

/-! ## Schemas and records -/

namespace Metadata

/-- Metadata as a value tree. -/
def toValue (m : Metadata) : Value := Table.toValue id m

/-- Reads metadata; any value may stand under a key. -/
def ofValue? (v : Value) : Option Metadata := Table.ofValue? some v

end Metadata

namespace Schema

/-- A schema as a value tree. -/
def toValue (s : Schema) : Value :=
  .record [("name", .text s.name), ("document", .text s.document)]

/-- Reads a schema. -/
def ofValue? (v : Value) : Option Schema := do
  let fields ← Fields.ofValue? ["name", "document"] v
  return {
    name := ← fields.required "name" Value.text?
    document := ← fields.required "document" Value.text? }

end Schema

namespace Definition

/-- A definition as a value tree. -/
def toValue (d : Definition) : Value :=
  .record [("schema", d.schema.toValue), ("metadata", Metadata.toValue d.metadata)]

/-- Reads a definition. -/
def ofValue? (v : Value) : Option Definition := do
  let fields ← Fields.ofValue? ["schema", "metadata"] v
  return {
    schema := ← fields.required "schema" Schema.ofValue?
    metadata := ← fields.required "metadata" Metadata.ofValue? }

end Definition

namespace Record

/-- A record of a registry as a value tree. -/
def toValue (r : Record) : Value :=
  .record <| [("registration_id", .text r.registrationId), ("name", .text r.name)] ++
    optionalField "location" (r.location.map .text) ++ [("metadata", Metadata.toValue r.metadata)]

/-- Reads a record of a registry. -/
def ofValue? (v : Value) : Option Record := do
  let fields ← Fields.ofValue? ["registration_id", "name", "location", "metadata"] v
  return {
    registrationId := ← fields.required "registration_id" Value.text?
    name := ← fields.required "name" Value.text?
    location := ← fields.optional "location" Value.text?
    metadata := ← fields.required "metadata" Metadata.ofValue? }

end Record
end SchemaHerald
