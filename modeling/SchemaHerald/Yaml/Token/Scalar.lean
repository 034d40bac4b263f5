import SchemaHerald.Text.Numeral
import SchemaHerald.Yaml.Cursor

/-!
# The content of scalars

How the text of a scalar is found in the stream. In plain and quoted scalars a `Gap` between two
words is folded: spaces stay, one line end becomes a space, of several line ends all but the first
stay. A block scalar keeps its lines (`|`) or folds them (`>`), and its header says what becomes of
the line ends at its end.
-/
namespace SchemaHerald.Yaml

/-! ## Gaps between words -/

/-- The spaces and line ends between two words of a scalar. -/
structure Gap where
  /-- The spaces and tabs before the first line end. -/
  spaces : List Char := []
  /-- What the first line end stands for. -/
  firstBreak : List Char := []
  /-- What the further line ends stand for. -/
  moreBreaks : List Char := []
  /-- Whether a line ends in the gap. -/
  broken : Bool := false
deriving Inhabited

namespace Gap

/-- The gap with one more space or tab; after a line end it is indentation and does not count. -/
def addSpace (g : Gap) (c : Char) : Gap :=
  if g.broken then g else { g with spaces := g.spaces ++ [c] }

/-- The gap with one more line end. -/
def addBreak (g : Gap) (content : List Char) : Gap :=
  if g.broken then { g with moreBreaks := g.moreBreaks ++ content }
  else { spaces := [], firstBreak := content, broken := true }

/-- **Folding**: what the gap contributes to the content. -/
def content (g : Gap) : List Char :=
  if !g.broken then g.spaces
  else if g.firstBreak == ['\n'] then
    if g.moreBreaks.isEmpty then [' '] else g.moreBreaks
  else g.firstBreak ++ g.moreBreaks

/-- Reads on through a gap. Where an indentation is given, a tab left of it is refused. -/
def read (indentation : Option Int) (start : Gap) (c : Cursor) : Except Fault (Gap × Cursor) :=
  repeatUntil step (c.rest.length + 1) (start, c)
where
  step : Gap × Cursor → Except Fault ((Gap × Cursor) ⊕ (Gap × Cursor))
    | (g, c) =>
      if c.sees isGap then
        if g.broken && c.isAt '\t' && indentation.any ((c.mark.column : Int) < ·) then
          c.fail .tabIndentation
        else .ok (.inl (g.addSpace ((c.at? 0).getD ' '), c.skip))
      else if c.sees isBreak then .ok (.inl (g.addBreak c.breakHere, c.skipBreak))
      else .ok (.inr (g, c))

end Gap

/-! ## Plain scalars -/

/-- The indicators that end a plain scalar in a flow collection. -/
def isFlowIndicator (c : Char) : Bool :=
  c == ',' || c == '[' || c == ']' || c == '{' || c == '}'

/-- The characters of a word of a plain scalar, and whether a colon stands wrongly after them. -/
def plainWord (inFlow : Bool) : List Char → List Char × Bool
  | [] => ([], false)
  | c :: rest =>
    if isGap c || isBreak c then ([], false)
    else if inFlow && c == ':' && rest.head?.any (fun x => isFlowIndicator x || x == '?') then
      ([], true)
    else if c == ':' && rest.head?.all (fun x => isGap x || isBreak x) then ([], false)
    else if inFlow && isFlowIndicator c then ([], false)
    else
      let (word, wrong) := plainWord inFlow rest
      (c :: word, wrong)

/-- A scalar that is being read: its content so far, the gap after it and the place reached. -/
structure Reading where
  /-- The content so far. -/
  content : List Char := []
  /-- The gap since the last word. -/
  gap : Gap := {}
  /-- The place reached. -/
  cursor : Cursor
deriving Inhabited

/-- **A plain scalar**: words and the gaps between them, up to a comment, a document marker, an
indicator or a line that is indented less. `indentation` is the least column of a line that still
belongs to it. -/
def readPlain (inFlow : Bool) (indentation : Int) (c : Cursor) : Except Fault Reading :=
  repeatUntil step (c.rest.length + 1) { cursor := c }
where
  step (r : Reading) : Except Fault (Reading ⊕ Reading) := do
    let c := r.cursor
    if c.atAnyMarker || c.isAt '#' then return .inr r
    let (word, wrong) := plainWord inFlow c.rest
    let content := if word.isEmpty then r.content else r.content ++ r.gap.content ++ word
    let gap := if word.isEmpty then r.gap else {}
    let c := c.skip word.length
    if wrong then c.fail .colonBeforeIndicator
    else if !c.endsWord || c.atEnd then return .inr { content, gap, cursor := c }
    else
      let (gap, c) ← gap.read (some indentation) c
      let r := { content, gap, cursor := c }
      if !inFlow && (c.mark.column : Int) < indentation then return .inr r else return .inl r

/-! ## Quoted scalars -/

/-- The character that a letter after a backslash stands for. -/
def shortEscape? : Char → Option Char
  | '0' => some '\x00'
  | 'a' => some '\x07'
  | 'b' => some '\x08'
  | 't' | '\t' => some '\t'
  | 'n' => some '\n'
  | 'v' => some '\x0b'
  | 'f' => some '\x0c'
  | 'r' => some '\r'
  | 'e' => some '\x1b'
  | ' ' => some ' '
  | '\x22' => some '\x22'
  | '/' => some '/'
  | '\\' => some '\\'
  | 'N' => some '\u0085'
  | '_' => some '\u00a0'
  | 'L' => some '\u2028'
  | 'P' => some '\u2029'
  | _ => none

/-- How many hexadecimal digits follow a letter after a backslash. -/
def escapeDigits? : Char → Option Nat
  | 'x' => some 2
  | 'u' => some 4
  | 'U' => some 8
  | _ => none

/-- The character with a number, if one has it. -/
def charOfNat? (n : Nat) : Option Char := if n.isValidChar then some (Char.ofNat n) else none

/-- The character that an escape stands for and the place after it, from the backslash on. -/
def readEscape (c : Cursor) : Except Fault (Char × Cursor) :=
  match c.at? 1 with
  | none => c.fail .unknownEscape
  | some letter =>
    match shortEscape? letter, escapeDigits? letter with
    | some x, _ => .ok (x, c.skip 2)
    | none, none => c.fail .unknownEscape
    | none, some width =>
      let digits := (c.rest.drop 2).take width
      match Text.digits? 16 digits with
      | some n =>
        if digits.length < width then c.fail .escapeDigits
        else match charOfNat? n with
          | some x => .ok (x, c.skip (2 + width))
          | none => c.fail .escapeCharacter
      | none => c.fail .escapeDigits

/-- **A quoted scalar**, from the opening quote on; only double quotes know escapes. -/
def readQuoted (single : Bool) (c : Cursor) : Except Fault Reading :=
  repeatUntil step (c.rest.length + 1) { cursor := c.skip }
where
  quote : Char := if single then '\x27' else '\x22'
  step (r : Reading) : Except Fault (Reading ⊕ Reading) := do
    let c := r.cursor
    if c.atAnyMarker then c.fail .markerInQuotes
    else if c.atEnd then c.fail .unclosedQuotes
    else if single && c.isAt quote 0 && c.isAt quote 1 then
      return .inl { r with content := r.content ++ [quote], cursor := c.skip 2 }
    else if c.isAt quote then return .inr { r with cursor := c.skip }
    else if !single && c.isAt '\\' && c.sees isBreak 1 then
      let (gap, c) ← Gap.read none { broken := true } c.skip.skipBreak
      return .inl { r with content := r.content ++ gap.content, cursor := c }
    else if !single && c.isAt '\\' then
      let (x, c) ← readEscape c
      return .inl { r with content := r.content ++ [x], cursor := c }
    else if c.endsWord then
      let (gap, c) ← Gap.read none {} c
      return .inl { r with content := r.content ++ gap.content, cursor := c }
    else
      let word := c.run fun x => !(isGap x || isBreak x || x == quote || (!single && x == '\\'))
      return .inl { r with content := r.content ++ word, cursor := c.skip word.length }

/-! ## Block scalars -/

/-- What becomes of the line ends at the end of a block scalar. -/
inductive Chomping
  /-- All are dropped. -/
  | strip
  /-- One is kept. -/
  | clip
  /-- All are kept. -/
  | keep
deriving DecidableEq, Repr, Inhabited

/-- The chomping that a sign asks for. -/
def Chomping.ofSign? (c : Cursor) : Option Chomping :=
  if c.isAt '+' then some .keep else if c.isAt '-' then some .strip else none

/-- The indentation that a digit asks for, and the place after it. -/
def readIndicator (c : Cursor) : Except Fault (Option Nat × Cursor) :=
  match c.at? 0 with
  | some d =>
    if d == '0' then c.fail .indentationZero
    else if d.isDigit then .ok (some (d.toNat - 48), c.skip)
    else .ok (none, c)
  | none => .ok (none, c)

/-- The header of a block scalar: chomping and indentation in either order, then nothing but a
comment. -/
def readHeader (c : Cursor) : Except Fault (Chomping × Option Nat × Cursor) := do
  let (chomping, indicator, c) ←
    match Chomping.ofSign? c with
    | some chomping => do
      let (indicator, c) ← readIndicator c.skip
      pure (chomping, indicator, c)
    | none => do
      let (indicator, c) ← readIndicator c
      match indicator, Chomping.ofSign? c with
      | some n, some chomping => pure (chomping, some n, c.skip)
      | indicator, _ => pure (.clip, indicator, c)
  let c := (c.skipWhile isGap).skipComment
  if c.endsLine then return (chomping, indicator, c.skipBreak) else c.fail .blockHeaderEnd

/-- The line ends and the indentation before the next line of a block scalar. -/
structure Margin where
  /-- What the line ends stand for. -/
  breaks : List Char := []
  /-- The widest indentation met. -/
  widest : Nat := 0
  /-- The place reached. -/
  cursor : Cursor
deriving Inhabited

/-- Reads on to the next line that has content. Without a known indentation all spaces are
indentation. -/
def readMargin (indentation : Option Nat) (c : Cursor) : Except Fault Margin :=
  repeatUntil step (c.rest.length + 1) { cursor := c }
where
  step (m : Margin) : Except Fault (Margin ⊕ Margin) :=
    let c := m.cursor
    let spaces := (c.run (· == ' ')).length
    let c := c.skip (match indentation with
      | some n => min spaces (n - c.mark.column)
      | none => spaces)
    let m := { m with widest := max m.widest c.mark.column, cursor := c }
    if c.isAt '\t' && indentation.all (c.mark.column < ·) then c.fail .tabIndentation
    else if c.sees isBreak then
      .ok (.inl { m with breaks := m.breaks ++ c.breakHere, cursor := c.skipBreak })
    else .ok (.inr m)

/-- The lines of a block scalar that are being read. -/
structure BlockReading where
  /-- The content so far. -/
  content : List Char := []
  /-- What the line end after the last line stands for. -/
  lastBreak : List Char := []
  /-- What the empty lines after it stand for. -/
  breaks : List Char := []
  /-- Whether the last line started with a blank. -/
  ledByGap : Bool := false
  /-- The place reached. -/
  cursor : Cursor
deriving Inhabited

/-- **A block scalar**, from its indicator on. `parent` is the indentation of the collection around
it, negative at the top. -/
def readBlock (keepsLines : Bool) (parent : Int) (c : Cursor) :
    Except Fault (List Char × Cursor) := do
  let (chomping, indicator, c) ← readHeader c.skip
  let asked := indicator.map fun n => (max parent 0).toNat + n
  let margin ← readMargin asked c
  let indentation := asked.getD (max margin.widest (max (parent + 1) 1).toNat)
  let r ← repeatUntil (step indentation) (c.rest.length + 1)
    { breaks := margin.breaks, cursor := margin.cursor }
  let lastBreak := if chomping == .strip then [] else r.lastBreak
  let breaks := if chomping == .keep then r.breaks else []
  return (r.content ++ lastBreak ++ breaks, r.cursor)
where
  step (indentation : Nat) (r : BlockReading) : Except Fault (BlockReading ⊕ BlockReading) := do
    let c := r.cursor
    if c.mark.column != indentation || c.atEnd then return .inr r
    let startsWithGap := c.sees isGap
    let folds := !keepsLines && r.lastBreak == ['\n'] && !r.ledByGap && !startsWithGap
    let glue :=
      if folds then (if r.breaks.isEmpty then [' '] else []) else r.lastBreak
    let line := c.run (!isBreak ·)
    let c := c.skip line.length
    let margin ← readMargin (some indentation) c.skipBreak
    return .inl {
      content := r.content ++ glue ++ r.breaks ++ line
      lastBreak := c.breakHere
      breaks := margin.breaks
      ledByGap := startsWithGap
      cursor := margin.cursor }

end SchemaHerald.Yaml
