import SchemaHerald.Table
import SchemaHerald.Yaml.Event
import SchemaHerald.Yaml.Token.Scan

/-!
# From events to a document

A document is a tree of nodes in which aliases stand as they are, together with the nodes that they
stand for. Aliases may lead back into the node around them, so they are only followed where a reader
needs what is there.

An alias goes by a number. A node with an anchor takes as its number how many names there are so
far, and of several nodes with one number the alias means the one that begins last. Names that are
given once each therefore never get mixed up.
-/
namespace SchemaHerald.Yaml

/-- A node of a document. -/
inductive Node
  /-- A scalar with its tag. -/
  | scalar (tag : Option String) (style : ScalarStyle) (text : String)
  /-- Nodes in order. -/
  | sequence (items : List Node)
  /-- Pairs of nodes in order. -/
  | mapping (entries : List (Node × Node))
  /-- The node with this number. -/
  | alias (number : Nat)
deriving Repr, Inhabited

/-- A document. -/
structure Document where
  /-- The node at the top. -/
  root : Node
  /-- The nodes that aliases stand for, by number. -/
  targets : Table Nat Node := {}
deriving Inhabited

namespace Document

/-- The node that a node stands for: itself, unless it is an alias. -/
def resolve (d : Document) : Node → Node
  | .alias number => (d.targets.get? number).getD (.alias number)
  | node => node

end Document

/-- A collection that has begun. -/
inductive Frame
  /-- A sequence with its items so far, last first. -/
  | sequence (start : Option Nat) (items : List Node)
  /-- A mapping with its pairs so far, last first, and the key that waits for its value. -/
  | mapping (start : Option Nat) (entries : List (Node × Node)) (key : Option Node)
deriving Inhabited

/-- A document that is being put together. Anchored nodes are told apart by the order in which they
begin, their *start*. -/
structure Composer where
  /-- The collections that have begun, innermost first. -/
  frames : List Frame := []
  /-- The node at the top, once it is complete. -/
  root : Option Node := none
  /-- The number that a name stands for. -/
  names : Table String Nat := {}
  /-- How many anchored nodes have begun. -/
  started : Nat := 0
  /-- The start of the node that a number means. -/
  starts : Table Nat Nat := {}
  /-- The complete nodes by their start. -/
  nodes : Table Nat Node := {}
deriving Inhabited

namespace Composer

variable (c : Composer)

/-- Notes an anchor, if there is one, and gives the start of its node. -/
def begin? (anchor : Option String) : Option Nat × Composer :=
  match anchor with
  | none => (none, c)
  | some name =>
    let number := c.names.size
    (some c.started, { c with
      names := c.names.insert name number
      starts := c.starts.insert number c.started
      started := c.started + 1 })

/-- Adds a complete node to the collection around it. -/
def add (start : Option Nat) (node : Node) : Composer :=
  let c := match start with
    | some start => { c with nodes := c.nodes.insert start node }
    | none => c
  match c.frames with
  | [] => { c with root := some node }
  | .sequence start items :: frames =>
    { c with frames := .sequence start (node :: items) :: frames }
  | .mapping start entries none :: frames =>
    { c with frames := .mapping start entries (some node) :: frames }
  | .mapping start entries (some key) :: frames =>
    { c with frames := .mapping start ((key, node) :: entries) none :: frames }

/-- The effect of one event. -/
def step (event : Event) : Except Fault Composer :=
  match event with
  | .documentStart | .documentEnd | .streamEnd => .ok c
  | .alias name =>
    match c.names.get? name with
    | some number => .ok (c.add none (.alias number))
    | none => .error ⟨.undefinedAlias, none⟩
  | .scalar anchor tag style text =>
    let (start, c) := c.begin? anchor
    .ok (c.add start (.scalar tag style text))
  | .sequenceStart anchor =>
    let (start, c) := c.begin? anchor
    .ok { c with frames := .sequence start [] :: c.frames }
  | .mappingStart anchor =>
    let (start, c) := c.begin? anchor
    .ok { c with frames := .mapping start [] none :: c.frames }
  | .sequenceEnd =>
    match c.frames with
    | .sequence start items :: frames =>
      .ok ({ c with frames }.add start (.sequence items.reverse))
    | _ => .error ⟨.unbalanced, none⟩
  | .mappingEnd =>
    match c.frames with
    | .mapping start entries none :: frames =>
      .ok ({ c with frames }.add start (.mapping entries.reverse))
    | _ => .error ⟨.unbalanced, none⟩

/-- The document of a composer that has come to the end of it. -/
def document? : Except Fault Document :=
  match c.root with
  | some root =>
    .ok { root, targets := Table.ofList (c.starts.entries.filterMap fun e =>
      (c.nodes.get? e.2).map fun node => (e.1, node)) }
  | none => .error ⟨.noDocument, none⟩

end Composer

/-- The document of a list of events, which must hold exactly one. -/
def Document.ofEvents? (events : List Event) : Except Fault Document :=
  match events.count .documentStart with
  | 0 => .error ⟨.noDocument, none⟩
  | 1 => do (← events.foldlM Composer.step {}).document?
  | _ => .error ⟨.severalDocuments, none⟩

/-- **The document that a text is.** -/
def Document.parse (text : String) : Except Fault Document := do
  Document.ofEvents? (← Event.ofTokens? (← Token.scan text))

end SchemaHerald.Yaml
