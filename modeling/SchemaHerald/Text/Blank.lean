/-!
# Blank characters and trimming

Registry names and schema names are compared without the blanks around them. A character is blank
when it has the Unicode property `White_Space`; zero-width characters such as U+200B and U+FEFF do
not have it and stay part of a name.

`trim` removes the blanks at both ends of a text and nothing else.
-/
namespace SchemaHerald.Text

/-- The characters with the Unicode property `White_Space`, in ascending order. -/
def blanks : List Char :=
  ['\t', '\n', '\x0b', '\x0c', '\r', ' ', '\u0085', '\u00a0', '\u1680',
   '\u2000', '\u2001', '\u2002', '\u2003', '\u2004', '\u2005', '\u2006', '\u2007', '\u2008',
   '\u2009', '\u200a', '\u2028', '\u2029', '\u202f', '\u205f', '\u3000']

/-- Whether a character counts as blank. -/
def isBlank (c : Char) : Bool := blanks.contains c

/-- The characters left when the blanks at both ends are removed. -/
def trimChars (cs : List Char) : List Char :=
  ((cs.dropWhile isBlank).reverse.dropWhile isBlank).reverse

/-- A text without the blanks at its two ends. -/
def trim (s : String) : String := String.ofList (trimChars s.toList)

/-- Whether a text has no character other than blanks. -/
def isBlankText (s : String) : Bool := (trim s).isEmpty

@[simp] theorem toList_trim (s : String) : (trim s).toList = trimChars s.toList := by
  simp [trim]

@[simp] theorem trimChars_nil : trimChars [] = [] := rfl

end SchemaHerald.Text
