import SchemaHerald.Yaml.Token

/-!
# From tokens to events

The grammar of YAML: `Event.ofTokens?` turns the tokens of a stream into the events of its
documents, in which collections are bracketed and content that is left out is an empty plain scalar.

The reader is a machine with a stack. Its state says what may come next, and each step emits one
event and uses up some tokens. The stack holds what to go on with after the node that is being read.
-/
namespace SchemaHerald.Yaml

/-- A step through a stream of documents. -/
inductive Event
  /-- A document begins. -/
  | documentStart
  /-- A document ends. -/
  | documentEnd
  /-- A node that was given before. -/
  | alias (name : String)
  /-- A scalar. -/
  | scalar (anchor tag : Option String) (style : ScalarStyle) (text : String)
  /-- A sequence begins. -/
  | sequenceStart (anchor : Option String)
  /-- A sequence ends. -/
  | sequenceEnd
  /-- A mapping begins. -/
  | mappingStart (anchor : Option String)
  /-- A mapping ends. -/
  | mappingEnd
  /-- The stream ends. -/
  | streamEnd
deriving DecidableEq, Repr, Inhabited

/-- What the reader of a stream expects. -/
inductive Expectation
  /-- A document; the first one may start without a marker. -/
  | documentStart (first : Bool)
  /-- The content of a document after its marker. -/
  | documentContent
  /-- The end of a document. -/
  | documentEnd
  /-- A node where block collections may begin. -/
  | blockNode
  /-- An entry of a block sequence. -/
  | blockEntry
  /-- An entry of a sequence at the indentation of the mapping around it. -/
  | indentlessEntry
  /-- A key of a block mapping. -/
  | blockKey
  /-- A value of a block mapping. -/
  | blockValue
  /-- An entry of a flow sequence. -/
  | flowEntry (first : Bool)
  /-- The key of a pair in a flow sequence. -/
  | flowPairKey
  /-- The value of a pair in a flow sequence. -/
  | flowPairValue
  /-- The end of a pair in a flow sequence. -/
  | flowPairEnd
  /-- A key of a flow mapping. -/
  | flowKey (first : Bool)
  /-- A value of a flow mapping. -/
  | flowValue
  /-- The value of a flow mapping that a key without a colon has. -/
  | flowValueLeftOut
deriving DecidableEq, Repr, Inhabited

/-- A stream that is being read. -/
structure StreamReader where
  /-- The tokens that are left. -/
  tokens : List Lexeme
  /-- What may come next. -/
  expects : Expectation := .documentStart true
  /-- What to go on with after the node that is being read. -/
  stack : List Expectation := []
  /-- The tag handles of the document and what they stand for. -/
  handles : List (String × String) := []
deriving Inhabited

namespace StreamReader

variable (r : StreamReader)

/-- The next token. Past the end of the stream it is the end again. -/
def peek : Token := (r.tokens.head?.map (·.token)).getD .streamEnd

/-- Where the next token starts. -/
def mark? : Option Mark := r.tokens.head?.map (·.mark)

/-- The reader after the next token. -/
def skip : StreamReader := { r with tokens := r.tokens.drop 1 }

/-- The reader that expects something else. -/
def expect (e : Expectation) : StreamReader := { r with expects := e }

/-- The reader that goes on with `e` after the next node. -/
def later (e : Expectation) : StreamReader := { r with stack := e :: r.stack }

/-- The reader that goes on with what waits on the stack. -/
def resume : StreamReader :=
  match r.stack with
  | e :: stack => { r with expects := e, stack }
  | [] => r

/-- The failure of a problem at the next token. -/
def fail {α : Type} (problem : Problem) : Except Fault α := .error ⟨problem, r.mark?⟩

/-- An event and the reader after it. -/
abbrev Step := Except Fault (Event × StreamReader)

/-- An empty scalar, and the reader that expects `e` after it. -/
def leftOut (e : Expectation) : Step := .ok (.scalar none none .plain "", r.expect e)

/-! ## Directives -/

/-- The handles that every document has. -/
def standardHandles : List (String × String) := [("!", "!"), ("!!", "tag:yaml.org,2002:")]

/-- The directives before a document: at most one version, and one tag directive for a handle. -/
def readDirectives : Except Fault StreamReader := do
  let (_, r) ← repeatUntil step (r.tokens.length + 1) (false, r)
  let missing := standardHandles.filter fun h => (r.handles.lookup h.1).isNone
  return { r with handles := r.handles ++ missing }
where
  step : Bool × StreamReader →
      Except Fault ((Bool × StreamReader) ⊕ (Bool × StreamReader))
    | (versioned, r) =>
      match r.peek with
      | .version major minor =>
        if versioned then r.fail .duplicateVersion
        else if major == 1 && (minor == 1 || minor == 2) then .ok (.inl (true, r.skip))
        else r.fail .incompatibleVersion
      | .tagHandle handle stem =>
        if (r.handles.lookup handle).isSome then r.fail .duplicateTagHandle
        else .ok (.inl (versioned, { r.skip with handles := r.handles ++ [(handle, stem)] }))
      | _ => .ok (.inr (versioned, r))

/-- The tag that a handle and a suffix stand for. The tag `!` alone says nothing. -/
def resolveTag (handle suffix : String) : Except Fault (Option String) :=
  if handle.isEmpty then .ok (if suffix == "!" then none else some suffix)
  else match r.handles.lookup handle with
    | some stem => .ok (some (stem ++ suffix))
    | none => r.fail .undefinedTagHandle

/-! ## Nodes -/

/-- The anchor and the tag before a node, in either order. -/
structure Properties where
  /-- The anchor's name. -/
  anchor : Option String := none
  /-- The tag. -/
  tag : Option String := none
  /-- Whether there is an anchor or a tag at all. -/
  given : Bool := false
deriving Inhabited

/-- Reads an anchor and a tag. -/
def readProperties : Except Fault (Properties × StreamReader) := do
  match r.peek with
  | .anchor name =>
    match r.skip.peek with
    | .tag handle suffix =>
      let tag ← r.skip.resolveTag handle suffix
      return ({ anchor := some name, tag, given := true }, r.skip.skip)
    | _ => return ({ anchor := some name, given := true }, r.skip)
  | .tag handle suffix =>
    let tag ← r.resolveTag handle suffix
    match r.skip.peek with
    | .anchor name => return ({ anchor := some name, tag, given := true }, r.skip.skip)
    | _ => return ({ tag, given := true }, r.skip)
  | _ => return ({}, r)

/-- **A node**: an alias, or properties and content. Block collections may begin where `block`
says so, a sequence without indentation of its own where `indentless` says so. -/
def readNode (block indentless : Bool) : Step := do
  if let .alias name := r.peek then return (.alias name, r.skip.resume)
  let (p, r) ← r.readProperties
  match r.peek with
  | .blockEntry =>
    if indentless then return (.sequenceStart p.anchor, r.expect .indentlessEntry)
    else if p.given then return (.scalar p.anchor p.tag .plain "", r.resume)
    else r.fail .contentMissing
  | .scalar style text => return (.scalar p.anchor p.tag style text, r.skip.resume)
  | .flowSequenceStart => return (.sequenceStart p.anchor, r.skip.expect (.flowEntry true))
  | .flowMappingStart => return (.mappingStart p.anchor, r.skip.expect (.flowKey true))
  | token =>
    if block && token == .blockSequenceStart then
      return (.sequenceStart p.anchor, r.skip.expect .blockEntry)
    else if block && token == .blockMappingStart then
      return (.mappingStart p.anchor, r.skip.expect .blockKey)
    else if p.given then return (.scalar p.anchor p.tag .plain "", r.resume)
    else r.fail .contentMissing

/-! ## Documents -/

/-- Leaves out the markers that end documents. -/
def skipMarkers : StreamReader :=
  { r with tokens := r.tokens.dropWhile (·.token == .documentEnd) }

/-- The start of a document, or the end of the stream. -/
def readDocumentStart (first : Bool) : Step := do
  let r := if first then r else r.skipMarkers
  let explicit := match r.peek with
    | .version .. | .tagHandle .. | .documentStart => true
    | _ => false
  if r.peek == .streamEnd then return (.streamEnd, r.skip)
  else if first && !explicit then
    let r ← r.readDirectives
    return (.documentStart, (r.later .documentEnd).expect .blockNode)
  else
    let r ← r.readDirectives
    if r.peek == .documentStart then
      return (.documentStart, (r.skip.later .documentEnd).expect .documentContent)
    else r.fail .documentStartMissing

/-- The content of a document after its marker, which may be left out. -/
def readDocumentContent : Step :=
  match r.peek with
  | .version .. | .tagHandle .. | .documentStart | .documentEnd | .streamEnd =>
    .ok (.scalar none none .plain "", r.resume)
  | _ => r.readNode true false

/-- The end of a document. -/
def readDocumentEnd : Step :=
  let r := if r.peek == .documentEnd then r.skip else r
  .ok (.documentEnd, { r with handles := [], expects := .documentStart false })

/-! ## Block collections -/

/-- An entry of a block sequence, or its end. -/
def readBlockEntry : Step :=
  match r.peek with
  | .blockEntry =>
    let r := r.skip
    match r.peek with
    | .blockEntry | .blockEnd => r.leftOut .blockEntry
    | _ => (r.later .blockEntry).readNode true false
  | .blockEnd => .ok (.sequenceEnd, r.skip.resume)
  | _ => r.fail .dashMissing

/-- An entry of a sequence without indentation of its own, or its end. -/
def readIndentlessEntry : Step :=
  match r.peek with
  | .blockEntry =>
    let r := r.skip
    match r.peek with
    | .blockEntry | .key | .value | .blockEnd => r.leftOut .indentlessEntry
    | _ => (r.later .indentlessEntry).readNode true false
  | _ => .ok (.sequenceEnd, r.resume)

/-- A key of a block mapping, or its end. -/
def readBlockKey : Step :=
  match r.peek with
  | .key =>
    let r := r.skip
    match r.peek with
    | .key | .value | .blockEnd => r.leftOut .blockValue
    | _ => (r.later .blockValue).readNode true true
  | .blockEnd => .ok (.mappingEnd, r.skip.resume)
  | _ => r.fail .keyMissing

/-- A value of a block mapping, which may be left out. -/
def readBlockValue : Step :=
  match r.peek with
  | .value =>
    let r := r.skip
    match r.peek with
    | .key | .value | .blockEnd => r.leftOut .blockKey
    | _ => (r.later .blockKey).readNode true true
  | _ => r.leftOut .blockKey

/-! ## Flow collections -/

/-- Passes over the comma before an entry that is not the first. -/
def skipComma (first : Bool) (problem : Problem) : Except Fault StreamReader :=
  if first then .ok r else if r.peek == .flowEntry then .ok r.skip else r.fail problem

/-- An entry of a flow sequence, or its end. An entry that starts with a key is a pair. -/
def readFlowEntry (first : Bool) : Step := do
  if r.peek == .flowSequenceEnd then return (.sequenceEnd, r.skip.resume)
  let r ← r.skipComma first .sequenceSeparator
  match r.peek with
  | .key => return (.mappingStart none, r.skip.expect .flowPairKey)
  | .flowSequenceEnd => return (.sequenceEnd, r.skip.resume)
  | _ => (r.later (.flowEntry false)).readNode false false

/-- The key of a pair in a flow sequence. Where it is left out, the token that shows this is used
up with it. -/
def readFlowPairKey : Step :=
  match r.peek with
  | .value | .flowEntry | .flowSequenceEnd => r.skip.leftOut .flowPairValue
  | _ => (r.later .flowPairValue).readNode false false

/-- The value of a pair in a flow sequence, which may be left out. -/
def readFlowPairValue : Step :=
  match r.peek with
  | .value =>
    let r := r.skip
    match r.peek with
    | .flowEntry | .flowSequenceEnd => r.leftOut .flowPairEnd
    | _ => (r.later .flowPairEnd).readNode false false
  | _ => r.leftOut .flowPairEnd

/-- A key of a flow mapping, or its end. -/
def readFlowKey (first : Bool) : Step := do
  if r.peek == .flowMappingEnd then return (.mappingEnd, r.skip.resume)
  let r ← r.skipComma first .mappingSeparator
  match r.peek with
  | .key =>
    let r := r.skip
    match r.peek with
    | .value | .flowEntry | .flowMappingEnd => r.leftOut .flowValue
    | _ => (r.later .flowValue).readNode false false
  | .flowMappingEnd => return (.mappingEnd, r.skip.resume)
  | _ => (r.later .flowValueLeftOut).readNode false false

/-- A value of a flow mapping, which may be left out. -/
def readFlowValue : Step :=
  match r.peek with
  | .value =>
    let r := r.skip
    match r.peek with
    | .flowEntry | .flowMappingEnd => r.leftOut (.flowKey false)
    | _ => (r.later (.flowKey false)).readNode false false
  | _ => r.leftOut (.flowKey false)

/-- **One step** through the stream. -/
def next : Step :=
  match r.expects with
  | .documentStart first => r.readDocumentStart first
  | .documentContent => r.readDocumentContent
  | .documentEnd => r.readDocumentEnd
  | .blockNode => r.readNode true false
  | .blockEntry => r.readBlockEntry
  | .indentlessEntry => r.readIndentlessEntry
  | .blockKey => r.readBlockKey
  | .blockValue => r.readBlockValue
  | .flowEntry first => r.readFlowEntry first
  | .flowPairKey => r.readFlowPairKey
  | .flowPairValue => r.readFlowPairValue
  | .flowPairEnd => .ok (.mappingEnd, r.expect (.flowEntry false))
  | .flowKey first => r.readFlowKey first
  | .flowValue => r.readFlowValue
  | .flowValueLeftOut => r.leftOut (.flowKey false)

end StreamReader

/-- **The events of a stream**, without its end. At most four events come from one token: one for
its own node, and those of a pair around it. -/
def Event.ofTokens? (tokens : List Lexeme) : Except Fault (List Event) := do
  let events ← repeatUntil step (4 * tokens.length + 8) ([], { tokens })
  return events.reverse
where
  step : List Event × StreamReader → Except Fault ((List Event × StreamReader) ⊕ List Event)
    | (events, r) => do
      match ← r.next with
      | (.streamEnd, _) => return .inr events
      | (event, r) => return .inl (event :: events, r)

end SchemaHerald.Yaml
