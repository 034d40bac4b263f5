import SchemaHerald.Failure
import SchemaHerald.Files
import SchemaHerald.Settings
import SchemaHerald.Yaml.Node
import SchemaHerald.Yaml.Plain

/-!
# Settings in YAML documents

A settings file is one YAML document. Each setting is read by the type that it has: a text is taken
from any scalar as it is written, whatever the scalar looks like; a count from a plain scalar that
stands for one; an optional setting is absent if a plain scalar is empty or stands for null. An
empty plain scalar is also an empty record and an empty table.

Unknown fields are not looked at. A known field may be there only once; in a table the last entry
counts.

`Settings.ofFile?` reads a file by what is found where it should be.
-/
namespace SchemaHerald

open Yaml

namespace Yaml.Document

variable (d : Document)

/-- The fault of a node that is not of the wanted kind. -/
def wrong {α : Type} (wanted : String) : Except Fault α := .error ⟨.wrongKind wanted, none⟩

/-- A text: any scalar, as it is written. -/
def text (node : Node) : Except Fault String :=
  match d.resolve node with
  | .scalar _ _ text => .ok text
  | _ => wrong "a string"

/-- A count: a plain scalar that stands for one. -/
def count (node : Node) : Except Fault Nat :=
  match d.resolve node with
  | .scalar _ .plain text =>
    match Plain.count? text with
    | some n => .ok n
    | none => wrong "an unsigned number"
  | _ => wrong "an unsigned number"

/-- The tag that marks null. -/
def nullTag : String := "tag:yaml.org,2002:null"

/-- Whether a node stands for an absent setting. A scalar that is tagged as null must look like
it. -/
def isAbsent : Node → Except Fault Bool
  | .scalar tag .plain text =>
    match tag with
    | none => .ok (text.isEmpty || Plain.isNull text)
    | some tag =>
      if tag != nullTag then .ok false
      else if Plain.isNull text then .ok true
      else wrong "null"
  | _ => .ok false

/-- An optional setting. -/
def optional {α : Type} (read : Node → Except Fault α) (node : Node) : Except Fault (Option α) := do
  if ← isAbsent (d.resolve node) then return none else return some (← read node)

/-- The pairs of a mapping, or none for an empty plain scalar. -/
def pairs (wanted : String) (node : Node) : Except Fault (List (Node × Node)) :=
  match d.resolve node with
  | .mapping entries => .ok entries
  | .scalar _ .plain text => if text.isEmpty then .ok [] else wrong wanted
  | _ => wrong wanted

/-- A table by name; of entries with one name the last counts. -/
def table {α : Type} (read : Node → Except Fault α) (node : Node) :
    Except Fault (Table String α) := do
  let entries ← (← d.pairs "a map" node).mapM fun e => do return (← d.text e.1, ← read e.2)
  return Table.ofList entries

/-- The known fields of a record, by name. -/
def fields (known : List String) (node : Node) : Except Fault (Table String Node) := do
  (← d.pairs "a record" node).foldlM (fun fields e => do
    let name ← d.text e.1
    if !known.contains name then return fields
    else if fields.contains name then .error ⟨.fieldRepeated name, none⟩
    else return fields.insert name e.2) {}

/-- The value of a field that must be there. -/
def required {α : Type} (fields : Table String Node) (name : String)
    (read : Node → Except Fault α) : Except Fault α :=
  match fields.get? name with
  | some node => read node
  | none => .error ⟨.fieldMissing name, none⟩

/-- The value of a field that has a default. -/
def defaulted {α : Type} (fields : Table String Node) (name : String)
    (read : Node → Except Fault α) (default : α) : Except Fault α :=
  match fields.get? name with
  | some node => read node
  | none => .ok default

/-! ## The types of settings -/

/-- A backend. -/
def backend (node : Node) : Except Fault Backend := do
  let fields ← d.fields ["name", "config"] node
  return {
    name := ← required fields "name" d.text
    options := ← defaulted fields "config" (d.table d.text) {} }

/-- Registry options. -/
def registryOptions (node : Node) : Except Fault RegistryOptions := do
  let fields ← d.fields ["name", "announceAddress", "backend"] node
  return {
    name := ← defaulted fields "name" d.text Settings.defaultRegistryName
    announceAddress := ← defaulted fields "announceAddress" (d.optional d.text) none
    backend := ← defaulted fields "backend" (d.optional d.backend) none }

/-- An identity. -/
def identity (node : Node) : Except Fault Identity := do
  let fields ← d.fields ["id", "defaultRegistry"] node
  return {
    id := ← defaulted fields "id" (d.optional d.text) none
    defaultRegistry := ← defaulted fields "defaultRegistry" (d.optional d.text) none }

/-- Limits. -/
def limits (node : Node) : Except Fault Limits := do
  let fields ← d.fields ["maxConcurrency", "timeoutSecs"] node
  return {
    maxConcurrency := ← defaulted fields "maxConcurrency" (d.optional d.count) none
    timeoutSecs := ← defaulted fields "timeoutSecs" (d.optional d.count) none }

/-- Settings. -/
def settings (node : Node) : Except Fault Settings := do
  let fields ← d.fields ["version", "publisher", "registries", "publish"] node
  return {
    version := ← required fields "version" d.text
    publisher := ← defaulted fields "publisher" (d.optional d.identity) none
    registries := ← defaulted fields "registries" (d.table d.registryOptions) {}
    publish := ← defaulted fields "publish" (d.optional d.limits) none }

end Yaml.Document

namespace Settings

/-- **The settings that a text holds.** -/
def ofYaml (content : String) : Except Fault Settings := do
  let d ← Yaml.Document.parse content
  d.settings d.root

/-- **The settings of a file**: none if there is no file, and a failure if it cannot be read. -/
def ofFile? (file : FileState) : Except Failure (Option Settings) :=
  if file.isThere then
    match file.read with
    | .error reason => .error (.settings s!"Failed to read config file: {reason}")
    | .ok content =>
      match ofYaml content with
      | .ok settings => .ok (some settings)
      | .error fault => .error (.settings s!"Failed to parse YAML config: {fault.message}")
  else .ok none

end Settings
end SchemaHerald
