import SchemaHerald.Settings

/-!
# References to environment variables

The option values of a backend may refer to environment variables as `${NAME}`, where a name
consists of capital ASCII letters, digits and underscores and does not start with a digit.

`expand` takes the references of the text as it is given, from left to right. For each one that has
a value it puts the value in place of *every* occurrence of that reference in the text as it stands
by then. A reference without a value stays as it is.
-/
namespace SchemaHerald.Reference

/-- Whether a name may start with this character. -/
def startsName (c : Char) : Bool := c.isUpper || c == '_'

/-- Whether a name may go on with this character. -/
def continuesName (c : Char) : Bool := startsName c || c.isDigit

/-- The text of a reference to a variable. -/
def text (name : List Char) : List Char := '$' :: '{' :: name ++ ['}']

/-- The name in the reference that a text starts with, if it starts with one. -/
def atStart? : List Char → Option (List Char)
  | '$' :: '{' :: c :: rest =>
    let name := c :: rest.takeWhile continuesName
    if startsName c && (rest.dropWhile continuesName).head? == some '}' then some name else none
  | _ => none

/-- The names that a text refers to, in order and as often as it does. No reference starts inside
another one, so each position can be looked at by itself. -/
def names : List Char → List (List Char)
  | [] => []
  | c :: rest => (atStart? (c :: rest)).toList ++ names rest

/-- Puts `value` in place of `pattern` wherever it occurs, from left to right; `skip` counts the
characters that still belong to the occurrence before. -/
def replaceFrom (pattern value : List Char) : Nat → List Char → List Char
  | _, [] => []
  | skip + 1, _ :: rest => replaceFrom pattern value skip rest
  | 0, c :: rest =>
    if pattern.isPrefixOf (c :: rest) then
      value ++ replaceFrom pattern value (pattern.length - 1) rest
    else c :: replaceFrom pattern value 0 rest

/-- Puts `value` in place of every occurrence of `pattern`. -/
def replaceAll (pattern value s : List Char) : List Char := replaceFrom pattern value 0 s

/-- Puts the value of one variable in place of all references to it, if it has a value. -/
def expandOne (env : Table String String) (s name : List Char) : List Char :=
  match env.get? (String.ofList name) with
  | some value => replaceAll (text name) value.toList s
  | none => s

/-- **Expansion** of the references in a text. -/
def expand (env : Table String String) (s : String) : String :=
  String.ofList ((names s.toList).foldl (expandOne env) s.toList)

end SchemaHerald.Reference

namespace SchemaHerald

/-- A backend with the references in its option values expanded. -/
def Backend.expand (env : Table String String) (b : Backend) : Backend :=
  { b with options := b.options.map (Reference.expand env) }

/-- Registry options with the references in the backend's option values expanded. -/
def RegistryOptions.expand (env : Table String String) (o : RegistryOptions) : RegistryOptions :=
  { o with backend := o.backend.map (·.expand env) }

/-- Settings with the references in all backend option values expanded; nothing else changes. -/
def Settings.expand (env : Table String String) (s : Settings) : Settings :=
  { s with registries := s.registries.map (·.expand env) }

end SchemaHerald
