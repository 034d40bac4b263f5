/-!
# Faults of YAML documents

What keeps a text from being read as a YAML document, or a document from having the shape that its
reader wants. A fault of the text names its place.
-/
namespace SchemaHerald.Yaml

/-- What is wrong with a document. -/
inductive Problem
  /-- A character that no document may hold. -/
  | controlCharacter
  /-- The text did not come to an end within the allotted steps. -/
  | unfinished
  /-- A key that must be followed by a colon is not. -/
  | colonMissing
  /-- A dash stands where no entry may start. -/
  | entryNotAllowed
  /-- A question mark stands where no key may start. -/
  | keyNotAllowed
  /-- A colon stands where no value may start. -/
  | valueNotAllowed
  /-- A character that starts nothing. -/
  | strayCharacter
  /-- A directive without a name. -/
  | directiveNameMissing
  /-- A directive's name goes on with a character that names do not have. -/
  | directiveNameEnd
  /-- A directive that is neither `YAML` nor `TAG`. -/
  | unknownDirective
  /-- A version without a number. -/
  | versionNumberMissing
  /-- A version with a number of too many digits. -/
  | versionNumberTooLong
  /-- A version without a dot. -/
  | versionDotMissing
  /-- Something follows a directive on its line. -/
  | directiveEnd
  /-- A tag handle without its exclamation marks. -/
  | tagHandle
  /-- A tag directive without blanks between or after its parts. -/
  | tagDirectiveGap
  /-- A tag without text. -/
  | tagEmpty
  /-- A percent sign without two hexadecimal digits. -/
  | tagOctet
  /-- Escaped octets that do not form a character. -/
  | tagOctetSequence
  /-- A verbatim tag without its closing bracket. -/
  | verbatimTagEnd
  /-- Something follows a tag at once. -/
  | tagEnd
  /-- An anchor or alias without a name, or with a name that goes on wrongly. -/
  | anchorName
  /-- A block scalar that asks for no indentation. -/
  | indentationZero
  /-- Something follows the header of a block scalar. -/
  | blockHeaderEnd
  /-- A tab stands where spaces indent. -/
  | tabIndentation
  /-- A document marker stands inside quotes. -/
  | markerInQuotes
  /-- Quotes are not closed. -/
  | unclosedQuotes
  /-- A backslash is followed by a character that it does not escape. -/
  | unknownEscape
  /-- An escape lacks hexadecimal digits. -/
  | escapeDigits
  /-- An escape names no character. -/
  | escapeCharacter
  /-- A colon stands before an indicator in a flow collection. -/
  | colonBeforeIndicator
  /-- A document does not start where one must. -/
  | documentStartMissing
  /-- Two version directives. -/
  | duplicateVersion
  /-- A version other than 1.1 and 1.2. -/
  | incompatibleVersion
  /-- Two tag directives for one handle. -/
  | duplicateTagHandle
  /-- A tag handle without a directive. -/
  | undefinedTagHandle
  /-- Content is missing. -/
  | contentMissing
  /-- A dash is missing in a block sequence. -/
  | dashMissing
  /-- A key is missing in a block mapping. -/
  | keyMissing
  /-- A comma or closing bracket is missing. -/
  | sequenceSeparator
  /-- A comma or closing brace is missing. -/
  | mappingSeparator
  /-- An alias without an anchor before it. -/
  | undefinedAlias
  /-- Events that do not form a tree. -/
  | unbalanced
  /-- More than one document. -/
  | severalDocuments
  /-- No document. -/
  | noDocument
  /-- A node is not of the kind that is wanted. -/
  | wrongKind (wanted : String)
  /-- A field that must be there is not. -/
  | fieldMissing (name : String)
  /-- A field is there twice. -/
  | fieldRepeated (name : String)
deriving DecidableEq, Repr, Inhabited

/-- The text of a problem. -/
def Problem.message : Problem → String
  | .controlCharacter => "control characters are not allowed"
  | .unfinished => "the document could not be read to its end"
  | .colonMissing => "could not find expected ':'"
  | .entryNotAllowed => "block sequence entries are not allowed in this context"
  | .keyNotAllowed => "mapping keys are not allowed in this context"
  | .valueNotAllowed => "mapping values are not allowed in this context"
  | .strayCharacter => "found character that cannot start any token"
  | .directiveNameMissing => "could not find expected directive name"
  | .directiveNameEnd => "found unexpected non-alphabetical character"
  | .unknownDirective => "found unknown directive name"
  | .versionNumberMissing => "did not find expected version number"
  | .versionNumberTooLong => "found extremely long version number"
  | .versionDotMissing => "did not find expected digit or '.' character"
  | .directiveEnd => "did not find expected comment or line break"
  | .tagHandle => "did not find expected '!'"
  | .tagDirectiveGap => "did not find expected whitespace"
  | .tagEmpty => "did not find expected tag URI"
  | .tagOctet => "did not find URI escaped octet"
  | .tagOctetSequence => "found an incorrect UTF-8 octet"
  | .verbatimTagEnd => "did not find the expected '>'"
  | .tagEnd => "did not find expected whitespace or line break"
  | .anchorName => "did not find expected alphabetic or numeric character"
  | .indentationZero => "found an indentation indicator equal to 0"
  | .blockHeaderEnd => "did not find expected comment or line break"
  | .tabIndentation => "found a tab character where an indentation space is expected"
  | .markerInQuotes => "found unexpected document indicator"
  | .unclosedQuotes => "found unexpected end of stream"
  | .unknownEscape => "found unknown escape character"
  | .escapeDigits => "did not find expected hexdecimal number"
  | .escapeCharacter => "found invalid Unicode character escape code"
  | .colonBeforeIndicator => "found unexpected ':'"
  | .documentStartMissing => "did not find expected <document start>"
  | .duplicateVersion => "found duplicate %YAML directive"
  | .incompatibleVersion => "found incompatible YAML document"
  | .duplicateTagHandle => "found duplicate %TAG directive"
  | .undefinedTagHandle => "found undefined tag handle"
  | .contentMissing => "did not find expected node content"
  | .dashMissing => "did not find expected '-' indicator"
  | .keyMissing => "did not find expected key"
  | .sequenceSeparator => "did not find expected ',' or ']'"
  | .mappingSeparator => "did not find expected ',' or '\x7d'"
  | .undefinedAlias => "unknown anchor"
  | .unbalanced => "unexpected end of a collection"
  | .severalDocuments => "more than one document"
  | .noDocument => "end of stream"
  | .wrongKind wanted => s!"expected {wanted}"
  | .fieldMissing name => s!"missing field '{name}'"
  | .fieldRepeated name => s!"duplicate field '{name}'"

/-- A place in a text, counted from zero. -/
structure Mark where
  /-- How many characters stand before it. -/
  index : Nat := 0
  /-- How many lines stand before it. -/
  line : Nat := 0
  /-- How many characters of its line stand before it. -/
  column : Nat := 0
deriving DecidableEq, Repr, Inhabited

/-- A problem and, if it belongs to a place in the text, that place. -/
structure Fault where
  /-- What is wrong. -/
  problem : Problem
  /-- Where it is. -/
  mark? : Option Mark := none
deriving DecidableEq, Repr, Inhabited

/-- The text of a fault; lines and columns are counted from one. -/
def Fault.message (f : Fault) : String :=
  match f.mark? with
  | some m => s!"{f.problem.message} at line {m.line + 1} column {m.column + 1}"
  | none => f.problem.message

/-- Repeats a step until it comes to a result. `fuel` bounds the repetitions; a caller gives one
more than the characters or tokens that the steps can use up. -/
def repeatUntil {σ α : Type} (step : σ → Except Fault (σ ⊕ α)) : Nat → σ → Except Fault α
  | 0, _ => .error ⟨.unfinished, none⟩
  | fuel + 1, s => do
    match ← step s with
    | .inl s => repeatUntil step fuel s
    | .inr a => return a

end SchemaHerald.Yaml
