import SchemaHerald.Value
import SchemaHerald.Yaml.Cursor
import SchemaHerald.Yaml.Plain

/-!
# How values are laid out as YAML

`Value.toYaml` writes a value as a block document with two spaces for each level. A text is written
without quotes if nothing else can be read from it, in single quotes if that is enough, as a literal
block if it has several lines, and in double quotes otherwise. A key that is long or has several
lines stands behind a question mark.
-/
namespace SchemaHerald

/-- The decimal digits of a number, with a point if there are digits behind it. -/
def Decimal.text (d : Decimal) : List Char :=
  let digits := Nat.toDigits 10 d.mantissa.natAbs
  let digits := List.replicate (d.exponent + 1 - digits.length) '0' ++ digits
  let whole := digits.take (digits.length - d.exponent)
  let part := digits.drop (digits.length - d.exponent)
  (if d.mantissa < 0 then ['-'] else []) ++ whole ++ (if part.isEmpty then [] else '.' :: part)

namespace Yaml.Layout

/-! ## Which forms a text may take -/

/-- Whether a character is written as it is. -/
def isPrintable (c : Char) : Bool :=
  c == '\n' || (' ' ≤ c && c ≤ '~') || ('\u00a0' ≤ c && c.toNat < 0xfffe && c.toNat ≠ 0xfeff)

/-- Whether two neighbours satisfy `p` and `q`. -/
def hasPair (p q : Char → Bool) : List Char → Bool
  | a :: b :: rest => (p a && q b) || hasPair p q (b :: rest)
  | _ => false

/-- Whether a character is a space. -/
def isSpace (c : Char) : Bool := c == ' '

/-- Characters that a text without quotes cannot start with. -/
def openers : List Char :=
  ['#', ',', '[', ']', '{', '}', '&', '*', '!', '|', '>', '\'', '"', '%', '@', '\x60']

/-- Whether a blank or the end of the text comes next. -/
def endsWord (cs : List Char) : Bool := cs.head?.all fun c => isGap c || isBreak c

/-- Whether a text starts with what would be read as structure. -/
def startsAsStructure (cs : List Char) : Bool :=
  ['-', '-', '-'].isPrefixOf cs || ['.', '.', '.'].isPrefixOf cs ||
    match cs with
    | c :: rest => openers.contains c || ((c == '?' || c == '-') && endsWord rest)
    | [] => false

/-- Whether a text holds a colon before a blank or at its end. -/
def hasKeyColon (cs : List Char) : Bool :=
  hasPair (· == ':') (fun c => isGap c || isBreak c) cs || cs.getLast? == some ':'

/-- Whether a text may be written without quotes as far as its characters go. -/
def plainAllowed (cs : List Char) : Bool :=
  cs.all (fun c => isPrintable c && !isBreak c) &&
    !(cs.head?.any isSpace || cs.getLast?.any isSpace || startsAsStructure cs || hasKeyColon cs ||
      hasPair isSpace (· == '#') cs)

/-- Whether a text may be written in single quotes. -/
def singleAllowed (cs : List Char) : Bool :=
  cs.all isPrintable && !(hasPair isBreak isSpace cs || hasPair isSpace isBreak cs)

/-- Whether a text may be written as a block. -/
def blockAllowed (cs : List Char) : Bool :=
  cs.all isPrintable && !(cs.getLast?.any isSpace || hasPair isSpace isBreak cs)

/-! ## The forms -/

/-- Spaces in front of a line. -/
def pad (n : Nat) : List Char := List.replicate n ' '

/-- Puts spaces in front of every line that is not empty; `fresh` says whether a line starts
here. -/
def indentLines (n : Nat) (fresh : Bool) : List Char → List Char
  | [] => []
  | c :: rest =>
    if isBreak c then c :: indentLines n true rest
    else (if fresh then pad n else []) ++ c :: indentLines n false rest

/-- A text in single quotes. -/
def singleQuoted (n : Nat) (cs : List Char) : List Char :=
  let body := cs.flatMap fun c => if c == '\'' then ['\'', '\''] else [c]
  '\'' :: indentLines n false body ++ (if cs.getLast?.any isBreak then pad n else []) ++ ['\'']

/-- A hexadecimal number of a fixed width, in capitals. -/
def hexadecimal (width n : Nat) : List Char :=
  let digits := (Nat.toDigits 16 n).map Char.toUpper
  List.replicate (width - digits.length) '0' ++ digits

/-- The letter that names a character after a backslash. -/
def escapeLetter? (c : Char) : Option Char :=
  match c with
  | '\x00' => some '0'
  | '\x07' => some 'a'
  | '\x08' => some 'b'
  | '\t' => some 't'
  | '\n' => some 'n'
  | '\x0b' => some 'v'
  | '\x0c' => some 'f'
  | '\r' => some 'r'
  | '\x1b' => some 'e'
  | '"' => some '"'
  | '\\' => some '\\'
  | '\u0085' => some 'N'
  | '\u2028' => some 'L'
  | '\u2029' => some 'P'
  | _ => none

/-- A character that stands for itself nowhere. -/
def escape (c : Char) : List Char :=
  match escapeLetter? c with
  | some letter => ['\\', letter]
  | none =>
    if c.toNat ≤ 0xff then '\\' :: 'x' :: hexadecimal 2 c.toNat
    else if c.toNat ≤ 0xffff then '\\' :: 'u' :: hexadecimal 4 c.toNat
    else '\\' :: 'U' :: hexadecimal 8 c.toNat

/-- A text in double quotes. -/
def doubleQuoted (cs : List Char) : List Char :=
  '"' :: (cs.flatMap fun c =>
    if !isPrintable c || isBreak c || c == '"' || c == '\\' then escape c else [c]) ++ ['"']

/-- What stands behind the bar of a literal block: the indentation, if the first line does not show
it, and how the line ends at the end are kept. -/
def blockHeader (cs : List Char) : List Char :=
  (if cs.head?.any fun c => isSpace c || isBreak c then ['2'] else []) ++
    match cs.reverse with
    | last :: rest =>
      if !isBreak last then ['-']
      else if rest.head?.all isBreak then ['+'] else []
    | [] => ['-']

/-- A text as a literal block. -/
def literal (n : Nat) (cs : List Char) : List Char :=
  '|' :: blockHeader cs ++ '\n' :: indentLines n true cs

/-- **A text in the form that suits it.** -/
def scalar (n : Nat) (s : String) : List Char :=
  let cs := s.toList
  if cs.contains '\n' then
    if blockAllowed cs then literal n cs else doubleQuoted cs
  else if Plain.isText s && plainAllowed cs then cs
  else if singleAllowed cs then singleQuoted n cs
  else doubleQuoted cs

/-! ## Documents -/

/-- Ends the line, if it is not at its end already. -/
def endLine (cs : List Char) : List Char :=
  if cs.getLast?.any isBreak then cs else cs ++ ['\n']

/-- The longest key, in bytes, that stands in front of its colon on one line. -/
def longestKey : Nat := 128

/-- Whether a key stands in front of its colon on one line. -/
def isSimpleKey (key : String) : Bool :=
  key.utf8ByteSize ≤ longestKey && !key.toList.any isBreak

mutual

/-- What stands behind a colon or another indicator of a collection with `n` spaces. `inline` says
that a collection begins on the same line. -/
def node (inline : Bool) (n : Nat) : Value → List Char
  | .null => " null\n".toList
  | .bool true => " true\n".toList
  | .bool false => " false\n".toList
  | .number d => ' ' :: endLine d.text
  | .text s => ' ' :: endLine (scalar (n + 2) s)
  | .list [] => " []\n".toList
  | .list xs =>
    if inline then ' ' :: (items (n + 2) xs).drop (n + 2) else '\n' :: items n xs
  | .record [] => [' ', '{', '}', '\n']
  | .record fields =>
    if inline then ' ' :: (entries (n + 2) fields).drop (n + 2)
    else '\n' :: entries (n + 2) fields

/-- The items of a list, each on lines of its own. -/
def items (n : Nat) : List Value → List Char
  | [] => []
  | v :: rest => pad n ++ '-' :: node true n v ++ items n rest

/-- The fields of a record, each on lines of its own. -/
def entries (n : Nat) : List (String × Value) → List Char
  | [] => []
  | e :: rest => entry n e ++ entries n rest

/-- One field. -/
def entry (n : Nat) : String × Value → List Char
  | (key, v) =>
    if isSimpleKey key then pad n ++ scalar (n + 2) key ++ ':' :: node false n v
    else pad n ++ '?' :: ' ' :: endLine (scalar (n + 2) key) ++ pad n ++ ':' :: node true n v

end

end Yaml.Layout

/-- **A value as a document.** -/
def Value.toYaml (v : Value) : String :=
  String.ofList <| match v with
    | .record (e :: rest) => Yaml.Layout.entries 0 (e :: rest)
    | .list (x :: rest) => Yaml.Layout.items 0 (x :: rest)
    | v => (Yaml.Layout.node false 0 v).drop 1

end SchemaHerald
