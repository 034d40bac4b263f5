import SchemaHerald.Text.Raw

/-!
# Files and paths

What is found where a file is looked for, and the parts of paths that names are taken from. Reading
a file as a text fails with the words that the operating system has for the reason.
-/
namespace SchemaHerald

/-- What is found where a file is looked for. -/
inductive FileState
  /-- Nothing. -/
  | absent
  /-- Nothing, because a file stands where a directory would have to be. -/
  | blocked
  /-- A directory. -/
  | directory
  /-- Octets that are no text. -/
  | binary
  /-- A text. -/
  | text (content : String)
deriving DecidableEq, Repr, Inhabited

namespace FileState

/-- Whether there is something. -/
def isThere : FileState → Bool
  | .absent | .blocked => false
  | .directory | .binary | .text _ => true

/-- Why there is no text to read, if there is none. -/
def fault? : FileState → Option String
  | .absent => some "No such file or directory (os error 2)"
  | .blocked => some "Not a directory (os error 20)"
  | .directory => some "Is a directory (os error 21)"
  | .binary => some "stream did not contain valid UTF-8"
  | .text _ => none

/-- The text of a file, or why it cannot be read. -/
def read : FileState → Except String String
  | .text content => .ok content
  | state => .error (state.fault?.getD "")

end FileState

namespace Path

open Text

/-- The octet between the steps of a path. -/
def slash : UInt8 := 0x2f

/-- The octet in front of an extension. -/
def dot : UInt8 := 0x2e

/-- The path of a file in a directory. -/
def join (directory : Raw) (name : String) : Raw :=
  if directory.isEmpty || directory.octets.getLast? == some slash then directory ++ ↑name
  else directory ++ ⟨[slash]⟩ ++ ↑name

/-- The steps of a path: what stands between its slashes. -/
def steps (path : Raw) : List Raw := (path.octets.splitOn slash).map .mk

/-- The last name in a path, if it ends in one. Slashes and single dots behind it do not count. -/
def fileName? (path : Raw) : Option Raw :=
  match (steps path).reverse.dropWhile fun step => step.isEmpty || step == ⟨[dot]⟩ with
  | [] => none
  | name :: _ => if name == ⟨[dot, dot]⟩ then none else some name

/-- A file name without its last dot and what follows it. A dot at the start belongs to the name. -/
def dropExtension (name : Raw) : Raw :=
  match name.octets.reverse.dropWhile (· != dot) with
  | _ :: octet :: rest => ⟨(octet :: rest).reverse⟩
  | _ => name

/-- The name of a file without its extension, if that is a text. -/
def stem? (path : Raw) : Option String := (fileName? path).bind fun name => (dropExtension name).text?

example : stem? "shop/orders.v2.graphql/" = some "orders.v2" := by decide +kernel

example : stem? (↑"shop/o" ++ ⟨[0xff]⟩) = none := by decide +kernel

end Path
end SchemaHerald
