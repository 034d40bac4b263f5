import SchemaHerald.Publisher

/-!
# Moves of a publisher

Everything that can happen to a publisher from outside, as data. `Publisher.moves` is the publisher
after a list of moves; the tasks that run and the answers that come may be any, in any order.
-/
namespace SchemaHerald

/-- What can happen to a publisher. -/
inductive Move
  /-- A caller asks for something. -/
  | ask (request : Request)
  /-- A caller gives up on a batch. -/
  | abandon (task : Nat)
  /-- A task that is ready runs. -/
  | run (task : Nat)
  /-- The registry answers a publish. -/
  | answerPublish (task : Nat) (answer : Answer)
  /-- The registry answers an unpublish. -/
  | answerUnpublish (task : Nat) (answer : Except Cause Unit)
  /-- A caller reserves a key. -/
  | reserve (registry schema : String)
  /-- A caller drops a reservation. -/
  | drop (key : Key)
  /-- A caller turns a reservation into a registration. -/
  | register (key : Key) (record : Record) (handle : Handle)
  /-- A caller unregisters. -/
  | unregister (registration : Registration)
  /-- A caller makes a handle. -/
  | newHandle (options : RegistryOptions)
  /-- A caller asks for the handle of a registry. -/
  | handleFor (options : RegistryOptions)
deriving Inhabited

namespace Publisher

/-- The publisher after a move. A move that is refused changes nothing. -/
def move (p : Publisher) : Move → Publisher
  | .ask request => p.ask request
  | .abandon task => p.abandon task
  | .run task => p.run task
  | .answerPublish task answer => p.answerPublish task answer
  | .answerUnpublish task answer => p.answerUnpublish task answer
  | .reserve registry schema =>
    match p.reserve registry schema with
    | .ok (_, p) => p
    | .error _ => p
  | .drop key => p.drop key
  | .register key record handle =>
    match p.register key record handle with
    | some (_, p) => p
    | none => p
  | .unregister registration => (p.unregister registration).2
  | .newHandle options => (p.newHandle options).2
  | .handleFor options => (p.handleFor options).2

/-- **The publisher after a list of moves.** -/
def moves (p : Publisher) (ms : List Move) : Publisher := ms.foldl move p

end Publisher
end SchemaHerald
