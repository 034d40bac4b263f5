import SchemaHerald.Text.Numeral
import SchemaHerald.Text.Raw

/-!
# Arguments

What the arguments of a command line ask for. An argument that starts with a dash gives switches,
several letters after one dash or a word after two; some of them take a value, which stands behind
them, with or without an equals sign, or is the next argument. All arguments after two lone dashes
are operands. The arguments are read from left to right, and the first one that asks for help or is
wrong decides. Paths may be any octets; all other values are texts.
-/
namespace SchemaHerald.CommandLine

open Text

/-- What can be said by a letter after a dash or a word after two. -/
inductive Switch
  /-- Show how the program is used. -/
  | help
  /-- Show which version it is. -/
  | version
  /-- Report more. -/
  | verbose
  /-- Overwrite what is there. -/
  | force
  /-- The registry to publish to. -/
  | registry
  /-- A key and a value of the metadata. -/
  | metadata
  /-- How many publishes may be under way at once. -/
  | maxConcurrency
  /-- The directory with the settings. -/
  | project
deriving DecidableEq, Repr, Inhabited

namespace Switch

/-- The letter of a switch, if it has one. -/
def letter? : Switch → Option Char
  | .help => some 'h'
  | .version => some 'V'
  | .verbose => some 'v'
  | .force => some 'f'
  | .registry => some 'r'
  | .metadata => some 'm'
  | .maxConcurrency | .project => none

/-- The word of a switch. -/
def word : Switch → String
  | .help => "help"
  | .version => "version"
  | .verbose => "verbose"
  | .force => "force"
  | .registry => "registry"
  | .metadata => "metadata"
  | .maxConcurrency => "max-concurrency"
  | .project => "project"

/-- Whether a switch takes a value. -/
def takesValue : Switch → Bool
  | .registry | .metadata | .maxConcurrency | .project => true
  | .help | .version | .verbose | .force => false

end Switch

/-- A part of a command line. -/
inductive Piece
  /-- A switch without a value. -/
  | flag (switch : Switch)
  /-- A switch with its value. -/
  | setting (switch : Switch) (value : Raw)
  /-- Any other argument. -/
  | operand (argument : Raw)
  /-- Something that no command line may hold. -/
  | wrong
deriving DecidableEq, Repr, Inhabited

/-- A reading of the letters after one dash: the pieces, and the switch at the end that waits for a
value. -/
structure Letters where
  /-- The pieces. -/
  pieces : List Piece
  /-- The switch that takes the next argument as its value. -/
  waiting : Option Switch := none
deriving Repr, Inhabited

/-- The octet in front of switches. -/
def dash : UInt8 := 0x2d

/-- The octet between a switch and its value. -/
def equals : UInt8 := 0x3d

/-- Octets without one equals sign in front. -/
def dropEquals : List UInt8 → List UInt8
  | [] => []
  | octet :: rest => if octet == equals then rest else octet :: rest

/-- Reads the letters after one dash. -/
def letters (known : List Switch) : List UInt8 → Letters
  | [] => ⟨[], none⟩
  | octet :: rest =>
    match known.find? fun switch => switch.letter?.map Char.toUInt8 == some octet with
    | none => ⟨[.wrong], none⟩
    | some switch =>
      if switch.takesValue then
        if rest.isEmpty then ⟨[], some switch⟩
        else ⟨[.setting switch ⟨dropEquals rest⟩], none⟩
      else
        let more := letters known rest
        ⟨.flag switch :: more.pieces, more.waiting⟩

/-- Reads what stands after two dashes. -/
def word (known : List Switch) (octets : List UInt8) : Letters :=
  let name : Raw := ⟨octets.takeWhile (· != equals)⟩
  let value? : Option Raw := match octets.dropWhile (· != equals) with
    | _ :: value => some ⟨value⟩
    | [] => none
  match known.find? fun switch => Raw.ofText switch.word == name, value? with
  | none, _ => ⟨[.wrong], none⟩
  | some switch, some value =>
    if switch.takesValue then ⟨[.setting switch value], none⟩ else ⟨[.wrong], none⟩
  | some switch, none =>
    if switch.takesValue then ⟨[], some switch⟩ else ⟨[.flag switch], none⟩

/-- Reads one argument, unless it is an operand. -/
def switches? (known : List Switch) (argument : Raw) : Option Letters :=
  match argument.octets with
  | first :: second :: rest =>
    if first != dash then none
    else if second == dash then some (word known rest)
    else some (letters known (second :: rest))
  | _ => none

/-- Whether an argument cannot be the value of the switch before it. -/
def isSwitch (argument : Raw) : Bool := (switches? [] argument).isSome

/-- Reads arguments, where `waiting` may wait for a value. -/
def piecesFrom (known : List Switch) : Option Switch → List Raw → List Piece
  | none, [] => []
  | some _, [] => [.wrong]
  | some switch, argument :: rest =>
    if isSwitch argument then [.wrong]
    else .setting switch argument :: piecesFrom known none rest
  | none, argument :: rest =>
    if argument == ⟨[dash, dash]⟩ then rest.map .operand
    else
      match switches? known argument with
      | some read => read.pieces ++ piecesFrom known read.waiting rest
      | none => .operand argument :: piecesFrom known none rest

/-- **The parts of a command line**, as far as the known switches go. -/
def pieces (known : List Switch) (arguments : List Raw) : List Piece :=
  piecesFrom known none arguments

/-! ## Commands -/

/-- What is to be published, and how. -/
structure PublishOptions where
  /-- The files with the schemas. -/
  files : List Raw := []
  /-- The registry, if one is asked for. -/
  registry : Option String := none
  /-- The entries of the metadata. -/
  metadata : List String := []
  /-- The limit on publishes at once, if one is asked for. -/
  maxConcurrency : Option Nat := none
  /-- The directory with the settings. -/
  project : Option Raw := none
deriving DecidableEq, Repr, Inhabited

/-- **What a command line asks for.** -/
inductive Invocation
  /-- To publish files. -/
  | publish (options : PublishOptions)
  /-- To check the settings of a directory. -/
  | check (project : Raw)
  /-- To write settings to a directory. -/
  | init (project : Raw) (force : Bool)
  /-- To show how the program is used. -/
  | help
  /-- To show its version. -/
  | version
  /-- Nothing that makes sense. -/
  | misuse
deriving DecidableEq, Repr, Inhabited

/-- The directory that is meant when none is named. -/
def here : Raw := "."

/-- Why the reading of a command line stops early. -/
inductive Stop
  /-- Help is asked for. -/
  | help
  /-- The version is asked for. -/
  | version
  /-- Something is wrong. -/
  | misuse
deriving DecidableEq, Repr, Inhabited

/-- What a command line that was not read to its end asks for. -/
def Stop.invocation : Stop → Invocation
  | .help => .help
  | .version => .version
  | .misuse => .misuse

/-- The values that a command was given so far. -/
structure Given where
  /-- The flags. -/
  flags : List Switch := []
  /-- The switches with values, in order. -/
  settings : List (Switch × Raw) := []
  /-- The operands, in order. -/
  operands : List Raw := []
deriving Repr, Inhabited

namespace Given

variable (g : Given)

/-- The value of a switch that is given at most once. -/
def value? (switch : Switch) : Option Raw := g.settings.lookup switch

/-- The value of a switch that is given at most once, as a text. -/
def text? (switch : Switch) : Option String := (g.value? switch).bind Raw.text?

/-- All values of a switch, which are texts. -/
def texts (switch : Switch) : List String :=
  (g.settings.filter (·.1 == switch)).filterMap (·.2.text?)

/-- Whether a value suits its switch: a directory has a name, a limit is a count, and everything else
is a text. -/
def suits : Switch → Raw → Bool
  | .project, value => !value.isEmpty
  | .maxConcurrency, value => (value.text?.bind Text.count?).isSome
  | _, value => value.text?.isSome

/-- Takes the next piece. All switches but those for metadata are given at most once, and there are
at most `most` operands, none of them empty. -/
def take (most : Option Nat) (piece : Piece) : Except Stop Given :=
  match piece with
  | .flag .help => .error .help
  | .flag .version => .error .version
  | .flag switch =>
    if g.flags.contains switch then .error .misuse
    else .ok { g with flags := g.flags ++ [switch] }
  | .setting switch value =>
    if suits switch value && (switch == .metadata || (g.value? switch).isNone) then
      .ok { g with settings := g.settings ++ [(switch, value)] }
    else .error .misuse
  | .operand argument =>
    if argument.isEmpty || most.any (g.operands.length == ·) then .error .misuse
    else .ok { g with operands := g.operands ++ [argument] }
  | .wrong => .error .misuse

end Given

/-- Reads the arguments of a command that knows some switches and takes so many operands. -/
def given (known : List Switch) (most : Option Nat) (arguments : List Raw) :
    Except Stop Given :=
  (pieces known arguments).foldlM (fun g piece => g.take most piece) {}

/-- Reads the arguments of `publish`. -/
def readPublish (arguments : List Raw) : Except Stop Invocation := do
  let g ← given [.help, .verbose, .registry, .metadata, .maxConcurrency, .project] none arguments
  if g.operands.isEmpty then throw .misuse
  return .publish {
    files := g.operands
    registry := g.text? .registry
    metadata := g.texts .metadata
    maxConcurrency := (g.text? .maxConcurrency).bind Text.count?
    project := g.value? .project }

/-- Reads the arguments of `check`. -/
def readCheck (arguments : List Raw) : Except Stop Invocation := do
  let g ← given [.help, .verbose] (some 1) arguments
  return .check (g.operands.head?.getD here)

/-- Reads the arguments of `init`. -/
def readInit (arguments : List Raw) : Except Stop Invocation := do
  let g ← given [.help, .verbose, .force] (some 1) arguments
  return .init (g.operands.head?.getD here) (g.flags.contains .force)

/-- The names of the commands. -/
def commandNames : List String := ["publish", "check", "init", "help"]

/-- Reads the arguments of `help`, which may name one command. -/
def readHelp : List Raw → Except Stop Invocation
  | [] => .ok .help
  | [name] => if name.text?.any commandNames.contains then .ok .help else .error .misuse
  | _ => .error .misuse

/-- Reads a command and its arguments. -/
def readCommand (name : Raw) (arguments : List Raw) : Except Stop Invocation :=
  match name.text? with
  | some "publish" => readPublish arguments
  | some "check" => readCheck arguments
  | some "init" => readInit arguments
  | some "help" => readHelp arguments
  | _ => .error .misuse

/-- Reads the switches in front of the command and the command; `seen` are the flags so far. -/
def readFrom (seen : List Switch) : List Raw → Except Stop Invocation
  | [] => .error .misuse
  | argument :: rest =>
    if argument == ⟨[dash, dash]⟩ then .error .misuse
    else
      match switches? [.help, .version, .verbose] argument with
      | none => readCommand argument rest
      | some read => do
        let g ← read.pieces.foldlM (fun g piece => g.take none piece) { flags := seen : Given }
        readFrom g.flags rest

/-- **What a command line asks for.** -/
def Invocation.ofArguments (arguments : List Raw) : Invocation :=
  match readFrom [] arguments with
  | .ok invocation => invocation
  | .error stop => stop.invocation

end SchemaHerald.CommandLine
