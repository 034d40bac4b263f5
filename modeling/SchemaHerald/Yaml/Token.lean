import SchemaHerald.Yaml.Fault

/-!
# Tokens

The words of a YAML stream. Indentation shows in tokens of its own: a block collection is opened by
the token of its kind and closed by `blockEnd`.
-/
namespace SchemaHerald.Yaml

/-- How a scalar is written. -/
inductive ScalarStyle
  /-- Without quotes. -/
  | plain
  /-- In single quotes. -/
  | singleQuoted
  /-- In double quotes. -/
  | doubleQuoted
  /-- As a block that keeps its lines. -/
  | literal
  /-- As a block that folds its lines. -/
  | folded
deriving DecidableEq, Repr, Inhabited

/-- A word of a stream. -/
inductive Token
  /-- A `%YAML` directive. -/
  | version (major minor : Nat)
  /-- A `%TAG` directive. -/
  | tagHandle (handle stem : String)
  /-- Three dashes. -/
  | documentStart
  /-- Three dots. -/
  | documentEnd
  /-- The indentation of a sequence begins. -/
  | blockSequenceStart
  /-- The indentation of a mapping begins. -/
  | blockMappingStart
  /-- The indentation of a collection ends. -/
  | blockEnd
  /-- An opening bracket. -/
  | flowSequenceStart
  /-- A closing bracket. -/
  | flowSequenceEnd
  /-- An opening brace. -/
  | flowMappingStart
  /-- A closing brace. -/
  | flowMappingEnd
  /-- A dash. -/
  | blockEntry
  /-- A comma. -/
  | flowEntry
  /-- A key begins. -/
  | key
  /-- A value begins. -/
  | value
  /-- A reference to an anchor. -/
  | alias (name : String)
  /-- The name of the node that follows. -/
  | anchor (name : String)
  /-- The tag of the node that follows. -/
  | tag (handle suffix : String)
  /-- A scalar. -/
  | scalar (style : ScalarStyle) (text : String)
  /-- The end of the stream. -/
  | streamEnd
deriving DecidableEq, Repr, Inhabited

/-- A token and where it starts. -/
structure Lexeme where
  /-- The token. -/
  token : Token
  /-- Where it starts. -/
  mark : Mark
deriving DecidableEq, Repr, Inhabited

end SchemaHerald.Yaml
