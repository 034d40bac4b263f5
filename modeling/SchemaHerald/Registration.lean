import SchemaHerald.Schema
import SchemaHerald.Settings

/-!
# Keys, handles and registrations

A schema is live in a registry under a key, the names of both without the blanks around them. All
publishes to one registry share a handle. A registration says that a schema was published through a
handle and what the registry noted about it.

Two registrations are *alike* if they have the same key and the same id; that does not make them the
same registration, which only the serial number tells.
-/
namespace SchemaHerald

open Std

/-- A schema in a registry. -/
structure Key where
  /-- The registry's name. -/
  registry : String
  /-- The schema's name. -/
  schema : String
deriving DecidableEq, Repr, Inhabited

namespace Key

/-- Keys are ordered by registry and, within one, by schema. -/
instance : Ord Key :=
  ⟨compareLex (compareOn (·.registry)) (compareOn (·.schema))⟩

instance : TransOrd Key :=
  inferInstanceAs (TransCmp (compareLex (compareOn Key.registry) (compareOn Key.schema)))

instance : LawfulEqOrd Key where
  eq_of_compare {a b} h := by
    obtain ⟨h1, h2⟩ := compareLex_eq_eq.1 h
    cases a; cases b
    simp only [Key.mk.injEq]
    exact ⟨LawfulEqOrd.eq_of_compare h1, LawfulEqOrd.eq_of_compare h2⟩

/-- The key of two names, without the blanks around them. -/
def canonical (registry schema : String) : Key := ⟨Text.trim registry, Text.trim schema⟩

end Key

/-- The resource that all publishes to one registry share. -/
structure Handle where
  /-- What tells it from other handles, also from those of the same name. -/
  number : Nat
  /-- How to reach the registry. -/
  options : RegistryOptions
deriving DecidableEq, Inhabited

/-- The name of a handle's registry. -/
def Handle.name (h : Handle) : String := h.options.name

/-- A schema that was published. -/
structure Registration where
  /-- What tells it from other registrations. -/
  serial : Nat
  /-- The schema's name. -/
  schema : String
  /-- The id of the publisher. -/
  publisher : String
  /-- What the registry noted. -/
  record : Record
  /-- The handle it was published through. -/
  handle : Handle
  /-- Whether someone is told about its fate. -/
  listened : Bool
deriving Inhabited

namespace Registration

/-- The registry of a registration, the one of its handle. -/
def registry (r : Registration) : String := r.handle.name

/-- The key of a registration. -/
def key (r : Registration) : Key := ⟨r.registry, r.schema⟩

/-- The id that the registry gave. -/
def id (r : Registration) : String := r.record.registrationId

/-- Whether two registrations have the same key and the same id. -/
def alike (a b : Registration) : Bool := a.key == b.key && a.id == b.id

/-- Whether a registration is listed before another or in the same place. -/
def le (a b : Registration) : Bool := compare a.key b.key != .gt

end Registration
end SchemaHerald
