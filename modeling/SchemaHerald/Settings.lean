import SchemaHerald.Table
import SchemaHerald.Text.Blank

/-!
# Settings of a publisher

The settings name the publishing process, describe the registries it may publish to and limit its
batches. A registry that is not described is used with bare options, its name and nothing else.
-/
namespace SchemaHerald

/-- The backends that a registry can be served by. -/
inductive BackendKind
  /-- Kept in the memory of the process. -/
  | memory
deriving DecidableEq, Repr, Inhabited

namespace BackendKind

/-- All backends. -/
def all : List BackendKind := [.memory]

/-- The name of a backend in settings and messages. -/
def name : BackendKind → String
  | .memory => "local"

/-- Whether two texts are equal when ASCII letters of either case count as one. -/
def sameName (a b : String) : Bool := a.toList.map Char.toLower == b.toList.map Char.toLower

/-- The backend of a configured name. Blanks around the name and the case of its ASCII letters do
not matter. -/
def ofName? (name : String) : Option BackendKind :=
  all.find? fun kind => sameName kind.name (Text.trim name)

/-- The names of all backends, for messages. -/
def supported : String := ", ".intercalate (all.map name)

end BackendKind

/-- The backend that serves a registry. -/
structure Backend where
  /-- Its name. -/
  name : String
  /-- Its options. -/
  options : Table String String := {}
deriving DecidableEq, Inhabited

/-- How to reach one registry. -/
structure RegistryOptions where
  /-- The registry's name; handles and registrations go by it. -/
  name : String := "default"
  /-- The address announced to other participants. -/
  announceAddress : Option String := none
  /-- The backend that serves it. -/
  backend : Option Backend := none
deriving DecidableEq, Inhabited

/-- Options that say nothing but the name. -/
def RegistryOptions.named (name : String) : RegistryOptions := { name }

/-- Who publishes, and where to by default. -/
structure Identity where
  /-- The id stamped into published schemas. -/
  id : Option String := none
  /-- The registry used when none is asked for. -/
  defaultRegistry : Option String := none
deriving DecidableEq, Inhabited

/-- Limits of a batch. -/
structure Limits where
  /-- How many publishes of a batch may be under way at once; without it, all of them. -/
  maxConcurrency : Option Nat := none
  /-- How many seconds a caller waits for a batch. -/
  timeoutSecs : Option Nat := none
deriving DecidableEq, Repr, Inhabited

/-- The limits that hold when nothing is said about them. -/
def Limits.default : Limits := { timeoutSecs := some 30 }

/-- **The settings of a publisher.** -/
structure Settings where
  /-- The version of the format. -/
  version : String
  /-- Who publishes. -/
  publisher : Option Identity := none
  /-- The registries, by name. -/
  registries : Table String RegistryOptions := {}
  /-- Limits of a batch. -/
  publish : Option Limits := none
deriving DecidableEq, Inhabited

namespace Settings

/-- The settings that hold when nothing is said. -/
def default : Settings := { version := "1.0", publish := some .default }

/-- The name of the registry used when none is asked for. -/
def defaultRegistryName : String := "default"

/-- The options of a registry: those that the settings describe under exactly this name, bare ones
otherwise. The name is the one that was asked for either way. -/
def registryOptions (s : Settings) (name : String) : RegistryOptions :=
  match s.registries.get? name with
  | some options => { options with name }
  | none => .named name

/-- The registry to use when none is asked for. -/
def defaultRegistry (s : Settings) : String :=
  (s.publisher.bind (·.defaultRegistry)).getD defaultRegistryName

end Settings
end SchemaHerald
