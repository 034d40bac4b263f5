import SchemaHerald.Yaml.Token
import SchemaHerald.Yaml.Token.Scalar

/-!
# From text to tokens

`Token.scan` splits a text into tokens. Two things are decided by what comes later on a line:

* A *simple key* is a place where a key may have begun. When the colon after it is met, the tokens
  that open the key, and the mapping if it is new, are put in at that place. The colon must come on
  the same line and within 1024 characters.
* *Indentation* opens a block collection where a line starts further right than the collection
  around it, and closes all collections that a line starts left of.

Inside brackets and braces indentation does not count.
-/
namespace SchemaHerald.Yaml

/-- A place where a key may have begun. -/
structure SimpleKey where
  /-- Whether a colon must follow, because nothing else can stand here. -/
  required : Bool
  /-- How many tokens stand before the key. -/
  position : Nat
  /-- Where the key begins. -/
  mark : Mark
deriving DecidableEq, Repr, Inhabited

/-- A key must end on its line and within this many characters. -/
def SimpleKey.reach : Nat := 1024

/-- Whether a key that began here can no longer be followed by its colon at `m`. -/
def SimpleKey.stale (k : SimpleKey) (m : Mark) : Bool :=
  k.mark.line < m.line || k.mark.index + SimpleKey.reach < m.index

/-- A text that is being split. -/
structure Scanner where
  /-- The place reached. -/
  cursor : Cursor
  /-- The tokens so far. -/
  tokens : Array Lexeme := #[]
  /-- The column of the innermost block collection, negative outside of all. -/
  indent : Int := -1
  /-- The columns of the collections around it, innermost first. -/
  outer : List Int := []
  /-- Whether a key may begin here. -/
  keyAllowed : Bool := true
  /-- The key that may have begun in the innermost flow collection, or outside of all. -/
  key : Option SimpleKey := none
  /-- The same for the flow collections around it, innermost first. -/
  outerKeys : List (Option SimpleKey) := []
  /-- Whether the end of the text has been met. -/
  ended : Bool := false
deriving Inhabited

namespace Scanner

variable (s : Scanner)

/-- Whether the place is inside brackets or braces. -/
def inFlow : Bool := !s.outerKeys.isEmpty

/-- The scanner with one more token that starts at `mark`. -/
def push (token : Token) (mark : Mark) : Scanner :=
  { s with tokens := s.tokens.push ⟨token, mark⟩ }

/-- The scanner with a token put in before those from `position` on. -/
def putIn (position : Nat) (token : Token) (mark : Mark) : Scanner :=
  { s with tokens := s.tokens.insertIdxIfInBounds position ⟨token, mark⟩ }

/-- The scanner after a token of `n` characters here. -/
def take (token : Token) (n : Nat) : Scanner :=
  { s.push token s.cursor.mark with cursor := s.cursor.skip n }

/-! ## Keys and indentation -/

/-- Gives up the key that may have begun; it is a fault if a colon had to follow. -/
def dropKey : Except Fault Scanner :=
  match s.key with
  | some k =>
    if k.required then .error ⟨.colonMissing, some k.mark⟩ else .ok { s with key := none }
  | none => .ok s

/-- Gives up the keys that can no longer be followed by their colon. -/
def dropStaleKeys : Except Fault Scanner := do
  let keep (k? : Option SimpleKey) : Except Fault (Option SimpleKey) :=
    match k? with
    | some k =>
      if !k.stale s.cursor.mark then .ok (some k)
      else if k.required then .error ⟨.colonMissing, some k.mark⟩
      else .ok none
    | none => .ok none
  return { s with key := ← keep s.key, outerKeys := ← s.outerKeys.mapM keep }

/-- Notes that a key may begin here, where one is allowed. -/
def noteKey : Except Fault Scanner := do
  if s.keyAllowed then
    let s ← s.dropKey
    let required := !s.inFlow && s.indent == s.cursor.mark.column
    return { s with key := some ⟨required, s.tokens.size, s.cursor.mark⟩ }
  else return s

/-- Opens a block collection at `column`, if that is further right than the one around it. The
token that opens it is put in before those from `position` on. -/
def openBlock (column : Nat) (position : Nat) (token : Token) (mark : Mark) : Scanner :=
  if !s.inFlow && s.indent < column then
    { s.putIn position token mark with indent := column, outer := s.indent :: s.outer }
  else s

/-- Closes the collections whose column is right of `column`. -/
def closeBlocks (column : Int) : Scanner :=
  if s.inFlow then s else go s s.indent s.outer
where
  go (s : Scanner) (indent : Int) : List Int → Scanner
    | [] => { s with indent, outer := [] }
    | around :: outer =>
      if column < indent then go (s.push .blockEnd s.cursor.mark) around outer
      else { s with indent, outer := around :: outer }

/-! ## Blanks, directives, names and tags -/

/-- Passes over spaces, comments and line ends. A tab counts as a space only where it cannot be
taken for indentation. -/
def passBlanks : Except Fault Scanner :=
  repeatUntil step (s.cursor.rest.length + 1)
    (if s.cursor.mark.index == 0 && s.cursor.isAt '\ufeff' then
      { s with cursor := s.cursor.skip } else s)
where
  step (s : Scanner) : Except Fault (Scanner ⊕ Scanner) :=
    let tabs := s.inFlow || !s.keyAllowed
    let c := (s.cursor.skipWhile fun x => x == ' ' || (tabs && x == '\t')).skipComment
    if c.sees isBreak then
      .ok (.inl { s with cursor := c.skipBreak, keyAllowed := s.keyAllowed || !s.inFlow })
    else .ok (.inr { s with cursor := c })

/-- A number of a version. -/
def readVersionNumber (c : Cursor) : Except Fault (Nat × Cursor) :=
  let digits := c.run Char.isDigit
  if digits.length > 9 then c.fail .versionNumberTooLong
  else match Text.digits? 10 digits with
    | some n => .ok (n, c.skip digits.length)
    | none => c.fail .versionNumberMissing

/-- A tag handle: an exclamation mark, a name and another exclamation mark. In a directive the
second mark may only be missing when there is no name. -/
def readHandle (directive : Bool) (c : Cursor) : Except Fault (List Char × Cursor) :=
  if !c.isAt '!' then c.fail .tagHandle
  else
    let name := c.skip.run isWord
    let after := c.skip (1 + name.length)
    if after.isAt '!' then .ok ('!' :: name ++ ['!'], after.skip)
    else if directive && !name.isEmpty then after.fail .tagHandle
    else .ok ('!' :: name, after)

/-- Whether a tag may have a character, inside of angle brackets or a directive (`wide`) or in its
short form. -/
def isTagCharacter (wide : Bool) (c : Char) : Bool :=
  isWord c || ";/?:@&=+$.%!~*\x27()".toList.contains c || (wide && ",[]".toList.contains c)

/-- How many octets a character has that starts with this one. -/
def octetCount? (first : Nat) : Option Nat :=
  if first < 0x80 then some 1
  else if 0xc0 ≤ first && first < 0xe0 then some 2
  else if 0xe0 ≤ first && first < 0xf0 then some 3
  else if 0xf0 ≤ first && first < 0xf8 then some 4
  else none

/-- The octets that `%` escapes stand for, checked to be the start of a character and as many
followers as it needs; each one is kept as the character of its number. -/
def readOctets (c : Cursor) : Except Fault (List Char × Cursor) := do
  let octet (c : Cursor) : Except Fault Nat :=
    let digits := (c.rest.drop 1).take 2
    match Text.digits? 16 digits with
    | some n => if c.isAt '%' && digits.length == 2 then .ok n else c.fail .tagOctet
    | none => c.fail .tagOctet
  let first ← octet c
  match octetCount? first with
  | none => c.fail .tagOctetSequence
  | some count =>
    let more ← (List.range (count - 1)).mapM fun i => do
      let place := c.skip (3 * (i + 1))
      let n ← octet place
      if n / 0x40 == 2 then pure n else place.fail .tagOctetSequence
    return ((first :: more).map Char.ofNat, c.skip (3 * count))

/-- The characters of a tag from here on, escapes resolved. -/
def readTagText (wide : Bool) (c : Cursor) : Except Fault (List Char × Cursor) :=
  repeatUntil step (c.rest.length + 1) ([], c)
where
  step : List Char × Cursor → Except Fault ((List Char × Cursor) ⊕ (List Char × Cursor))
    | (text, c) => do
      if c.isAt '%' then
        let (octets, c) ← readOctets c
        return .inl (text ++ octets, c)
      match c.at? 0 with
      | some x =>
        if isTagCharacter wide x then return .inl (text ++ [x], c.skip) else return .inr (text, c)
      | none => return .inr (text, c)

/-- A directive, from the percent sign on. -/
def readDirective (c : Cursor) : Except Fault (Token × Cursor) := do
  let name := c.skip.run isWord
  let after := c.skip (1 + name.length)
  if name.isEmpty then after.fail .directiveNameMissing
  else if !after.endsWord then after.fail .directiveNameEnd
  else
    let c := after.skipWhile isGap
    let (token, c) ←
      if name == "YAML".toList then do
        let (major, c) ← readVersionNumber c
        if !c.isAt '.' then c.fail .versionDotMissing
        else
          let (minor, c) ← readVersionNumber c.skip
          pure (Token.version major minor, c)
      else if name == "TAG".toList then do
        let (handle, c) ← readHandle true c
        if !c.sees isGap then c.fail .tagDirectiveGap
        else
          let (stem, c) ← readTagText true (c.skipWhile isGap)
          if stem.isEmpty then c.fail .tagEmpty
          else if !c.endsWord then c.fail .tagDirectiveGap
          else pure (Token.tagHandle (String.ofList handle) (String.ofList stem), c)
      else after.fail .unknownDirective
    let c := (c.skipWhile isGap).skipComment
    if c.endsLine then return (token, c.skipBreak) else c.fail .directiveEnd

/-- The name of an anchor or alias, from its indicator on. -/
def readName (c : Cursor) : Except Fault (String × Cursor) :=
  let name := c.skip.run isWord
  let after := c.skip (1 + name.length)
  if name.isEmpty || !(after.endsWord || after.sees ("?:,]\x7d%@\x60".toList.contains ·)) then
    after.fail .anchorName
  else .ok (String.ofList name, after)

/-- A tag, from its exclamation mark on: verbatim in angle brackets, with a handle, or local. -/
def readTag (inFlow : Bool) (c : Cursor) : Except Fault (Token × Cursor) := do
  let (token, after) ←
    if c.isAt '<' 1 then do
      let (text, after) ← readTagText true (c.skip 2)
      if text.isEmpty then after.fail .tagEmpty
      else if !after.isAt '>' then after.fail .verbatimTagEnd
      else pure (Token.tag "" (String.ofList text), after.skip)
    else do
      let (handle, after) ← readHandle false c
      let (text, after) ← readTagText false after
      if handle.length > 1 && handle.getLast? == some '!' then
        if text.isEmpty then after.fail .tagEmpty
        else pure (Token.tag (String.ofList handle) (String.ofList text), after)
      else
        let suffix := handle.drop 1 ++ text
        if suffix.isEmpty then pure (Token.tag "" "!", after)
        else pure (Token.tag "!" (String.ofList suffix), after)
  if after.endsWord || (inFlow && after.isAt ',') then return (token, after)
  else after.fail .tagEnd

/-! ## Tokens -/

/-- The end of the text closes everything. -/
def takeEnd : Except Fault Scanner := do
  let c := s.cursor
  let mark := if c.mark.column == 0 then c.mark else ⟨c.mark.index, c.mark.line + 1, 0⟩
  let s ← ({ s with cursor := { c with mark } }.closeBlocks (-1)).dropKey
  return { s.push .streamEnd mark with keyAllowed := false, ended := true }

/-- A directive closes all blocks. -/
def takeDirective : Except Fault Scanner := do
  let s ← (s.closeBlocks (-1)).dropKey
  let (token, c) ← readDirective s.cursor
  return { s.push token s.cursor.mark with cursor := c, keyAllowed := false }

/-- A document marker closes all blocks. -/
def takeMarker (token : Token) : Except Fault Scanner := do
  let s ← (s.closeBlocks (-1)).dropKey
  return { s.take token 3 with keyAllowed := false }

/-- An opening bracket or brace may be a key itself and may be followed by one. -/
def takeFlowStart (token : Token) : Except Fault Scanner := do
  let s ← s.noteKey
  return { s.take token 1 with keyAllowed := true, key := none, outerKeys := s.key :: s.outerKeys }

/-- A closing bracket or brace leads back to the collection around. -/
def takeFlowEnd (token : Token) : Except Fault Scanner := do
  let s ← s.dropKey
  let s := { s.take token 1 with keyAllowed := false }
  match s.outerKeys with
  | key :: outerKeys => return { s with key, outerKeys }
  | [] => return s

/-- A comma may be followed by a key. -/
def takeFlowEntry : Except Fault Scanner := do
  let s ← s.dropKey
  return { s.take .flowEntry 1 with keyAllowed := true }

/-- A dash opens a block sequence where it stands further right than what is around. -/
def takeBlockEntry : Except Fault Scanner := do
  let mark := s.cursor.mark
  if !s.inFlow && !s.keyAllowed then s.cursor.fail .entryNotAllowed
  else
    let s ← (s.openBlock mark.column s.tokens.size .blockSequenceStart mark).dropKey
    return { s.take .blockEntry 1 with keyAllowed := true }

/-- A question mark opens a block mapping where it stands further right than what is around. -/
def takeKey : Except Fault Scanner := do
  let mark := s.cursor.mark
  if !s.inFlow && !s.keyAllowed then s.cursor.fail .keyNotAllowed
  else
    let s ← (s.openBlock mark.column s.tokens.size .blockMappingStart mark).dropKey
    return { s.take .key 1 with keyAllowed := !s.inFlow }

/-- A colon ends the simple key before it, if there is one. -/
def takeValue : Except Fault Scanner := do
  let mark := s.cursor.mark
  match s.key with
  | some k =>
    let s := s.putIn k.position .key k.mark
    let s := s.openBlock k.mark.column k.position .blockMappingStart k.mark
    return { s.take .value 1 with key := none, keyAllowed := false }
  | none =>
    if !s.inFlow && !s.keyAllowed then s.cursor.fail .valueNotAllowed
    else
      let s := s.openBlock mark.column s.tokens.size .blockMappingStart mark
      return { s.take .value 1 with keyAllowed := !s.inFlow }

/-- An anchor, alias or tag may be the start of a key. -/
def takeProperty (read : Cursor → Except Fault (Token × Cursor)) : Except Fault Scanner := do
  let s ← s.noteKey
  let (token, c) ← read s.cursor
  return { s.push token s.cursor.mark with cursor := c, keyAllowed := false }

/-- A plain or quoted scalar may be a key. After a plain scalar that goes over a line end a key may
follow. -/
def takeFlowScalar (style : ScalarStyle) (read : Cursor → Except Fault Reading) :
    Except Fault Scanner := do
  let s ← s.noteKey
  let r ← read s.cursor
  return { s.push (.scalar style (String.ofList r.content)) s.cursor.mark with
    cursor := r.cursor, keyAllowed := style == .plain && r.gap.broken }

/-- A block scalar is never a key; one may follow. -/
def takeBlockScalar (style : ScalarStyle) : Except Fault Scanner := do
  let s ← s.dropKey
  let (content, c) ← readBlock (style == .literal) s.indent s.cursor
  return { s.push (.scalar style (String.ofList content)) s.cursor.mark with
    cursor := c, keyAllowed := true }

/-- Whether a plain scalar may start here. -/
def startsPlain : Bool :=
  let c := s.cursor
  (!c.endsWord && !c.sees ("-?:,[]\x7b\x7d#&*!|>\x27\x22%@\x60".toList.contains ·)) ||
    (c.isAt '-' && !c.sees isGap 1) ||
    (!s.inFlow && (c.isAt '?' || c.isAt ':') && !c.endsWord 1)

/-- **The next token**, with those that indentation and keys put in. -/
def next : Except Fault Scanner := do
  let s ← s.passBlanks
  let s ← s.dropStaleKeys
  let s := s.closeBlocks s.cursor.mark.column
  let c := s.cursor
  let indicator (x : Char) : Bool := c.isAt x && (s.inFlow || c.endsWord 1)
  if c.atEnd then s.takeEnd
  else if c.mark.column == 0 && c.isAt '%' then s.takeDirective
  else if c.atMarker '-' then s.takeMarker .documentStart
  else if c.atMarker '.' then s.takeMarker .documentEnd
  else if c.isAt '[' then s.takeFlowStart .flowSequenceStart
  else if c.isAt '{' then s.takeFlowStart .flowMappingStart
  else if c.isAt ']' then s.takeFlowEnd .flowSequenceEnd
  else if c.isAt '}' then s.takeFlowEnd .flowMappingEnd
  else if c.isAt ',' then s.takeFlowEntry
  else if c.isAt '-' && c.endsWord 1 then s.takeBlockEntry
  else if indicator '?' then s.takeKey
  else if indicator ':' then s.takeValue
  else if c.isAt '*' then
    s.takeProperty fun c => do let (name, c) ← readName c; return (.alias name, c)
  else if c.isAt '&' then
    s.takeProperty fun c => do let (name, c) ← readName c; return (.anchor name, c)
  else if c.isAt '!' then s.takeProperty (readTag s.inFlow)
  else if c.isAt '|' && !s.inFlow then s.takeBlockScalar .literal
  else if c.isAt '>' && !s.inFlow then s.takeBlockScalar .folded
  else if c.isAt '\x27' then s.takeFlowScalar .singleQuoted (readQuoted true)
  else if c.isAt '\x22' then s.takeFlowScalar .doubleQuoted (readQuoted false)
  else if s.startsPlain then s.takeFlowScalar .plain (readPlain s.inFlow (s.indent + 1))
  else c.fail .strayCharacter

end Scanner

/-- The characters of a text without the byte-order mark that it may start with. -/
def withoutByteOrderMark : List Char → List Char
  | '\ufeff' :: rest => rest
  | cs => cs

/-- **The tokens of a text**, the last one being the end of the stream. -/
def Token.scan (text : String) : Except Fault (List Lexeme) := do
  let cs := withoutByteOrderMark text.toList
  if cs.all isAllowed then
    repeatUntil step (cs.length + 2) { cursor := { rest := cs } }
  else .error ⟨.controlCharacter, none⟩
where
  step (s : Scanner) : Except Fault (Scanner ⊕ List Lexeme) := do
    let s ← s.next
    return if s.ended then .inr s.tokens.toList else .inl s

end SchemaHerald.Yaml
