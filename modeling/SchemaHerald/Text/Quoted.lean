import SchemaHerald.Text.Hidden

/-!
# Quoted texts

A text as it stands inside a message: between double quotes, with a backslash before each quote and
each backslash. Hidden characters are named by a letter or by their code point.
-/
namespace SchemaHerald.Text.Quoted

/-- A hidden character by its code point, as hexadecimal digits in braces. -/
def codePoint (c : Char) : List Char :=
  '\\' :: 'u' :: '{' :: Nat.toDigits 16 c.toNat ++ ['}']

/-- A character as it stands between quotes. -/
def escape (c : Char) : List Char :=
  match c with
  | '\x00' => ['\\', '0']
  | '\t' => ['\\', 't']
  | '\n' => ['\\', 'n']
  | '\r' => ['\\', 'r']
  | '"' => ['\\', '"']
  | '\\' => ['\\', '\\']
  | c => if isHidden c then codePoint c else [c]

/-- **A text in quotes.** -/
def encode (s : String) : String := String.ofList ('"' :: s.toList.flatMap escape ++ ['"'])

end SchemaHerald.Text.Quoted
