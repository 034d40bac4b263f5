import SchemaHerald.Settings.Reference
import SchemaHerald.Text.Numeral

/-!
# Layers of settings

Settings are put together from up to five layers: the defaults, the file in the home directory, the
file of the project, the environment and the command line. A later layer wins over an earlier one,
setting by setting; of the registries it replaces whole entries.

The layers of the environment and of the command line are settings like any other, with a version of
their own.
-/
namespace SchemaHerald

/-- The identity with the parts that `upper` gives. -/
def Identity.overlay (base upper : Identity) : Identity where
  id := upper.id.or base.id
  defaultRegistry := upper.defaultRegistry.or base.defaultRegistry

/-- The limits with the parts that `upper` gives. -/
def Limits.overlay (base upper : Limits) : Limits where
  maxConcurrency := upper.maxConcurrency.or base.maxConcurrency
  timeoutSecs := upper.timeoutSecs.or base.timeoutSecs

namespace Settings

/-- **One layer over another.** An empty version says nothing. A part that `base` lacks starts from
its defaults before `upper` is laid on it. -/
def overlay (base upper : Settings) : Settings where
  version := if upper.version.isEmpty then base.version else upper.version
  publisher :=
    match upper.publisher with
    | some identity => some ((base.publisher.getD {}).overlay identity)
    | none => base.publisher
  registries := base.registries.overlay upper.registries
  publish :=
    match upper.publish with
    | some limits => some ((base.publish.getD .default).overlay limits)
    | none => base.publish

/-- The variable that gives the publisher's id. -/
def idVariable : String := "SCHEMA_PUBLISHER_ID"

/-- The variable that names the registry to use. -/
def registryVariable : String := "SCHEMA_PUBLISHER_REGISTRY"

/-- The variable that limits a batch. -/
def maxConcurrencyVariable : String := "SCHEMA_PUBLISHER_MAX_CONCURRENCY"

/-- The identity that a layer sets, if it sets a part of it. -/
def identity? (id defaultRegistry : Option String) : Option Identity :=
  if id.isSome || defaultRegistry.isSome then some { id, defaultRegistry } else none

/-- **The layer of the environment**, if a variable sets something. A limit that is not a count sets
nothing. -/
def ofEnvironment? (env : Table String String) : Option Settings :=
  let publisher := identity? (env.get? idVariable) (env.get? registryVariable)
  let limit := (env.get? maxConcurrencyVariable).bind Text.count?
  if publisher.isSome || limit.isSome then
    some { Settings.default with
      publisher, publish := limit.map fun max => { maxConcurrency := some max } }
  else none

/-- **The layer of the command line**, if an option is given. -/
def ofArguments? (registry : Option String) (maxConcurrency : Option Nat) : Option Settings :=
  if registry.isSome || maxConcurrency.isSome then
    some { Settings.default with
      publisher := registry.map fun name => { defaultRegistry := some name }
      publish := maxConcurrency.map fun max => { maxConcurrency := some max } }
  else none

/-- All layers together, the first one lowest, over the defaults. -/
def ofLayers (layers : List Settings) : Settings := layers.foldl overlay Settings.default

/-- **The settings in force**: the layers that there are, one over the other, with the references to
the environment expanded at the end. -/
def ofSources (home project : Option Settings) (env : Table String String)
    (arguments : Option Settings) : Settings :=
  (ofLayers <| Settings.default :: home.toList ++ project.toList ++ (ofEnvironment? env).toList ++
    arguments.toList).expand env

end Settings
end SchemaHerald
