import SchemaHerald.Yaml.Fault

/-!
# Cursors

A cursor is a place in a text together with the characters from there on. Lines end in a line feed,
a carriage return, both in this order, a next-line character, a line separator or a paragraph
separator; the first four stand for a line feed in the content of a scalar.
-/
namespace SchemaHerald.Yaml

/-- Whether a character may stand in a document. -/
def isAllowed (c : Char) : Bool :=
  c == '\t' || c == '\n' || c == '\r' || (' ' ≤ c && c ≤ '~') || c == '\u0085' ||
    ('\u00a0' ≤ c && c.toNat ≠ 0xfffe && c.toNat ≠ 0xffff)

/-- Whether a character is a space or a tab. -/
def isGap (c : Char) : Bool := c == ' ' || c == '\t'

/-- Whether a character ends a line. -/
def isBreak (c : Char) : Bool :=
  c == '\n' || c == '\r' || c == '\u0085' || c == '\u2028' || c == '\u2029'

/-- Whether names of anchors, directives and tag handles may have a character. -/
def isWord (c : Char) : Bool := c.isAlphanum || c == '_' || c == '-'

/-- What a line end stands for in the content of a scalar. -/
def breakText (c : Char) : List Char :=
  if c == '\u2028' || c == '\u2029' then [c] else ['\n']

/-- A place in a text. -/
structure Cursor where
  /-- The characters from there on. -/
  rest : List Char
  /-- Where it is. -/
  mark : Mark := {}
deriving Inhabited

/-- The place after `n` characters of one line, or at the end of the text if there are fewer. -/
def Cursor.after : Nat → List Char → Mark → Cursor
  | n + 1, _ :: rest, m => after n rest { m with index := m.index + 1, column := m.column + 1 }
  | _, rest, m => ⟨rest, m⟩

namespace Cursor

variable (c : Cursor)

/-- The character after `n` others. -/
def at? (n : Nat) : Option Char := c.rest[n]?

/-- Whether the character after `n` others satisfies `p`. -/
def sees (p : Char → Bool) (n : Nat := 0) : Bool := (c.at? n).any p

/-- Whether the character after `n` others is this one. -/
def isAt (x : Char) (n : Nat := 0) : Bool := c.at? n == some x

/-- Whether the text ends here. -/
def atEnd : Bool := c.rest.isEmpty

/-- Whether a line ends after `n` characters, or the text does. -/
def endsLine (n : Nat := 0) : Bool := (c.at? n).all isBreak

/-- Whether a space, a tab, a line end or the end of the text follows after `n` characters. -/
def endsWord (n : Nat := 0) : Bool := (c.at? n).all fun x => isGap x || isBreak x

/-- The place after `n` characters of the same line. -/
def skip (n : Nat := 1) : Cursor := after n c.rest c.mark

/-- The place where the next line starts, from a line end. -/
def skipBreak : Cursor :=
  match c.rest with
  | '\r' :: '\n' :: rest => ⟨rest, ⟨c.mark.index + 2, c.mark.line + 1, 0⟩⟩
  | x :: rest =>
    if isBreak x then ⟨rest, ⟨c.mark.index + 1, c.mark.line + 1, 0⟩⟩ else c
  | [] => c

/-- The content that the line end here stands for; nothing, if no line ends here. -/
def breakHere : List Char :=
  match c.rest with
  | x :: _ => if isBreak x then breakText x else []
  | [] => []

/-- The characters from here on that satisfy `p`. -/
def run (p : Char → Bool) : List Char := c.rest.takeWhile p

/-- The place after the characters that satisfy `p`. -/
def skipWhile (p : Char → Bool) : Cursor := c.skip (c.run p).length

/-- The place after a comment, if one starts here. -/
def skipComment : Cursor := if c.isAt '#' then c.skipWhile (!isBreak ·) else c

/-- Whether the line starts with a document marker, three times the same character. -/
def atMarker (x : Char) : Bool :=
  c.mark.column == 0 && c.isAt x 0 && c.isAt x 1 && c.isAt x 2 && c.endsWord 3

/-- Whether the line starts with one of the two document markers. -/
def atAnyMarker : Bool := c.atMarker '-' || c.atMarker '.'

/-- The failure of a problem at this place. -/
def fail {α : Type} (problem : Problem) : Except Fault α := .error ⟨problem, some c.mark⟩

end Cursor
end SchemaHerald.Yaml
