import SchemaHerald.Publisher

/-!
# Sessions

A session is a publisher at work with a registry whose answers and delays are known, on a clock
that only moves when nothing else can. Tasks run in the order in which they became ready. A call
that takes no time is answered before anything else happens; any other one sleeps until its time has
come.

`settle` runs what can run now, `await` goes on until a task has ended, and `advance` lets a span of
time pass.
-/
namespace SchemaHerald

/-- How a registry with a state of its own answers, and how long it takes. -/
structure Client (σ : Type) where
  /-- How long a publish takes. -/
  publishDelay : σ → Handle → Definition → Nat
  /-- How long an unpublish takes. -/
  unpublishDelay : σ → Registration → Nat
  /-- The answer to a publish; the truth value says whether the handle is shut. -/
  publish : σ → Bool → Handle → Definition → Answer × σ
  /-- The answer to an unpublish. -/
  unpublish : σ → Registration → Except Cause Unit × σ

/-- A call that sleeps. -/
structure Sleeper where
  /-- When it has come to its end. -/
  wakes : Nat
  /-- The task that it is for. -/
  task : Nat
deriving DecidableEq, Repr, Inhabited

/-- **A publisher at work** with a registry in the state `state`. -/
structure Session (σ : Type) where
  /-- The publisher. -/
  publisher : Publisher
  /-- The state of the registry. -/
  state : σ
  /-- The time. -/
  now : Nat := 0
  /-- The calls that sleep. -/
  sleepers : List Sleeper := []
  /-- What could be seen and when, the last event standing first. -/
  log : List (Nat × Entry) := []
  /-- The tasks that have ended, each with the registrar as it stood then. -/
  ends : List (Nat × Registrar) := []
deriving Inhabited

/-- The task that an entry is a call for, if it is a call. -/
def Entry.task? : Entry → Option Nat
  | .publishCall task _ _ | .unpublishCall task _ => some task
  | .published _ | .unpublished _ => none

namespace Session

variable {σ : Type} (client : Client σ) (r : Session σ)

/-- What a changed publisher lets be seen that was not there before, last event first. -/
def fresh (publisher : Publisher) : List Entry :=
  publisher.journal.take (publisher.journal.length - r.publisher.journal.length)

/-- The tasks that have ended in a changed publisher and had not before. -/
def newlyEnded (publisher : Publisher) : List Nat :=
  (List.range publisher.tasks.length).filter fun task =>
    (publisher.outcome? task).isSome && (r.publisher.outcome? task).isNone

/-- The session with a changed publisher; what can be seen of the change is logged. -/
def become (publisher : Publisher) : Session σ :=
  { r with
    publisher
    log := (r.fresh publisher).map (r.now, ·) ++ r.log
    ends := (r.newlyEnded publisher).map (·, publisher.registrar) ++ r.ends }

/-- Lets the registry answer the call of a task. -/
def answer (task : Nat) : Session σ :=
  match r.publisher.stage? task with
  | some (.publishing _ handle definition) | some (.tryingPublish handle definition) =>
    let shut := r.publisher.registrar.isShut handle
    let (answer, state) := client.publish r.state shut handle definition
    { r with state }.become (r.publisher.answerPublish task answer)
  | some (.unpublishing registration) | some (.tryingUnpublish registration) =>
    let (answer, state) := client.unpublish r.state registration
    { r with state }.become (r.publisher.answerUnpublish task answer)
  | _ => r

/-- How long the call of an entry takes. -/
def delay : Entry → Nat
  | .publishCall _ handle definition => client.publishDelay r.state handle definition
  | .unpublishCall _ registration => client.unpublishDelay r.state registration
  | .published _ | .unpublished _ => 0

/-- Takes up a call that has begun: answers it, if it takes no time, or lets it sleep. -/
def takeUp (entry : Entry) : Session σ :=
  match entry.task? with
  | none => r
  | some task =>
    match r.delay client entry with
    | 0 => r.answer client task
    | n => { r with sleepers := r.sleepers ++ [⟨r.now + n, task⟩] }

/-- Runs a task that is ready, and takes up the calls that it begins. -/
def runTask (task : Nat) : Session σ :=
  let publisher := r.publisher.run task
  (r.fresh publisher).reverse.foldl (takeUp client) (r.become publisher)

/-- How many schemas the batches have that have not begun. -/
def pendingSchemas (publisher : Publisher) : Nat :=
  publisher.tasks.foldl (fun n t => match t.stage with
    | .asked (.publishAll _ definitions) => n + definitions.length
    | _ => n) 0

/-- More than the turns that tasks can take before nothing is ready: a task has a few turns, and a
teardown has one for each registration that may be live by then. -/
def turns : Nat :=
  4 * (r.publisher.tasks.length + pendingSchemas r.publisher + r.publisher.registrar.slots.size) + 8

/-- Gives turns to the tasks that are ready, in order, at most `n` of them. -/
def runReady : Nat → Session σ → Session σ
  | 0, r => r
  | n + 1, r =>
    match r.publisher.ready with
    | [] => r
    | task :: _ => runReady n (r.runTask client task)

/-- **Runs what can run now.** -/
def settle : Session σ := runReady client r.turns r

/-- The sleeper that wakes first. -/
def nextSleeper? : Option Sleeper :=
  r.sleepers.foldl (fun best s => match best with
    | some b => if s.wakes < b.wakes then some s else some b
    | none => some s) none

/-- Moves the clock to the end of a sleep and goes on from there. -/
def wakeUp (s : Sleeper) : Session σ :=
  let r := { r with now := s.wakes, sleepers := r.sleepers.erase s }
  (r.answer client s.task).settle client

/-- Ends at most `n` sleeps, until a task has ended; with a deadline, only sleeps that are over by
then. -/
def awaitWithin (task : Nat) (deadline : Option Nat) : Nat → Session σ → Session σ
  | 0, r => r
  | n + 1, r =>
    if (r.publisher.outcome? task).isSome then r
    else
      match r.nextSleeper? with
      | none => r
      | some s =>
        if deadline.all (s.wakes ≤ ·) then awaitWithin task deadline n (r.wakeUp client s) else r

/-- **Goes on until a task has ended**, or until a deadline if there is one. -/
def await (task : Nat) (deadline : Option Nat := none) : Session σ :=
  let r := r.settle client
  awaitWithin client task deadline r.turns r

/-- Ends at most `n` sleeps that last no longer than to a point of time. -/
def advanceWithin (target : Nat) : Nat → Session σ → Session σ
  | 0, r => r
  | n + 1, r =>
    match r.nextSleeper? with
    | none => r
    | some s => if s.wakes ≤ target then advanceWithin target n (r.wakeUp client s) else r

/-- **Lets time pass.** -/
def advance (span : Nat) : Session σ :=
  let target := r.now + span
  { advanceWithin client target r.turns r with now := target }

/-- The registrar as it stood when a task ended, or as it is now. -/
def registrarAtEnd (task : Nat) : Registrar :=
  (r.ends.lookup task).getD r.publisher.registrar

/-- **Asks for something**: gives the number of the task. -/
def ask (request : Request) : Nat × Session σ :=
  (r.publisher.tasks.length, r.become (r.publisher.ask request))

end Session
end SchemaHerald
