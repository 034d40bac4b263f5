import SchemaHerald.Files

/-!
# File trees

A `FileTree` holds files by their place, the names of the directories on the way and the file's own
name. A path leads from a directory to a place, one step after the other, and every step but the
last has to end in a directory.
-/
namespace SchemaHerald

/-- The names on the way from the root to a file or directory. -/
abbrev Place := List Text.Raw

/-- **Files by their place.** The root is always a directory. -/
structure FileTree where
  /-- What stands where; of two entries for one place the first counts. -/
  entries : List (Place × FileState) := []
deriving Inhabited

namespace FileTree

variable (t : FileTree)

/-- What stands at a place. -/
def at? (place : Place) : FileState :=
  if place.isEmpty then .directory else (t.entries.lookup place).getD .absent

/-- Follows steps from a place. An empty step and a dot stay there, two dots go up. -/
def follow (place : Place) : List Text.Raw → Except FileState Place
  | [] => .ok place
  | step :: rest =>
    match t.at? place with
    | .directory =>
      if step.isEmpty || step == ⟨[Path.dot]⟩ then follow place rest
      else if step == ⟨[Path.dot, Path.dot]⟩ then follow place.dropLast rest
      else follow (place ++ [step]) rest
    | .absent => .error .absent
    | .blocked | .binary | .text _ => .error .blocked

/-- The place that a path leads to from a working directory. -/
def locate (working : Place) (path : Text.Raw) : Except FileState Place :=
  match path.octets.head? with
  | none => .error .absent
  | some octet => t.follow (if octet == Path.slash then [] else working) (Path.steps path)

/-- **What is found** at a path. -/
def look (working : Place) (path : Text.Raw) : FileState :=
  match t.locate working path with
  | .ok place => t.at? place
  | .error state => state

/-- Puts something at a place. -/
def put (place : Place) (state : FileState) : FileTree := ⟨(place, state) :: t.entries⟩

/-- Puts something at a place, and directories on the way to it where nothing stands. -/
def plant (place : Place) (state : FileState) : FileTree :=
  let ways := (List.range place.length).map place.take
  let t := ways.foldl (fun t way => if (t.at? way).isThere then t else t.put way .directory) t
  t.put place state

/-- **Writes** a text to a file, in a directory that must be there. -/
def write (working : Place) (path : Text.Raw) (content : String) : Except String FileTree :=
  match t.locate working path with
  | .error state => .error (state.fault?.getD "")
  | .ok place =>
    match t.at? place with
    | .directory => .error (FileState.directory.fault?.getD "")
    | _ => .ok (t.put place (.text content))

end FileTree
end SchemaHerald
