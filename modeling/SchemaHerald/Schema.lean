import SchemaHerald.Table
import SchemaHerald.Text.Blank
import SchemaHerald.Value

/-!
# Schemas and their metadata

A schema is a name and a document. It is published together with metadata, a table of values by
key; one key, `publisherId`, is reserved for the process that publishes. Registrations go by the
schema's canonical name, its name without the blanks around it.
-/
namespace SchemaHerald

/-- A named document. -/
structure Schema where
  /-- The name, as it was given. -/
  name : String
  /-- The text of the schema. -/
  document : String
deriving DecidableEq, Repr, Inhabited

/-- Values that travel with a schema, by key. -/
abbrev Metadata := Table String Value

namespace Metadata

/-- The key under which the publishing process signs. -/
def publisherKey : String := "publisherId"

end Metadata

/-- A schema with the metadata that it is published with. -/
structure Definition where
  /-- The schema. -/
  schema : Schema
  /-- Its metadata. -/
  metadata : Metadata := {}
deriving Inhabited

namespace Definition

/-- The name that registrations go by: the schema's name without blanks around it. -/
def name (d : Definition) : String := Text.trim d.schema.name

/-- The definition with one metadata value set. -/
def put (d : Definition) (key : String) (value : Value) : Definition :=
  { d with metadata := d.metadata.insert key value }

/-- The definition signed by a publisher; an earlier signature is replaced. -/
def stamp (d : Definition) (publisher : String) : Definition :=
  d.put Metadata.publisherKey (.text publisher)

/-- Who signed the definition. A value that is not a text is no signature. -/
def publisher? (d : Definition) : Option String :=
  (d.metadata.get? Metadata.publisherKey).bind Value.text?

@[simp] theorem publisher?_stamp (d : Definition) (publisher : String) :
    (d.stamp publisher).publisher? = some publisher := by
  simp [publisher?, stamp, put, Value.text?]

@[simp] theorem name_stamp (d : Definition) (publisher : String) :
    (d.stamp publisher).name = d.name := rfl

end Definition

/-- What a registry notes about one published schema. -/
structure Record where
  /-- The id that the registry gave it. -/
  registrationId : String
  /-- The name that it was published under. -/
  name : String
  /-- Where the schema can be found, if the registry says so. -/
  location : Option String := none
  /-- The metadata, as it was published. -/
  metadata : Metadata := {}
deriving Inhabited

end SchemaHerald
