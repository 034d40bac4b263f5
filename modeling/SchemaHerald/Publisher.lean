import SchemaHerald.Publisher.Task
import SchemaHerald.Registrar

/-!
# The publisher

A `Publisher` is a registrar together with the tasks that work on it. It moves in steps: a caller
asks for something (`ask`) or gives up on a batch (`abandon`), a task that is ready runs until it
has to wait (`run`), the registry answers a call (`answerPublish`, `answerUnpublish`), or a caller
uses the registrar directly (`reserve`, `drop`, `register`, `unregister`, `newHandle`, `handleFor`).
Nothing is said about which ready task runs next and when and how the registry answers, so that
whatever holds after all sequences of steps holds for every order in which tasks and answers may
come.

Tasks become ready in the order of `ready`; running always its first task serves them fairly.

A task that publishes has the reservation of its key from the moment at which the registry is called
until the answer comes. A teardown waits until nothing is reserved, takes the registrations back and
then releases the registrar.
-/
namespace SchemaHerald

/-- The options with the blanks around the registry's name removed; something must be left of it. -/
def RegistryOptions.canonical? (o : RegistryOptions) : Except Failure RegistryOptions :=
  let name := Text.trim o.name
  if name.isEmpty then .error (.invalidArgument "registry" "registry name must not be empty")
  else .ok { o with name }

/-- **A publisher**: a registrar and the tasks that work on it. -/
structure Publisher where
  /-- What is live where. -/
  registrar : Registrar
  /-- Whether someone listens to what becomes of the registrations. -/
  listening : Bool := false
  /-- How many schemas of a batch may be published at once, if there is a limit. -/
  limit : Option Nat := none
  /-- The tasks; the number of a task is its place. -/
  tasks : List Task := []
  /-- The tasks that can go on, the first to become ready standing first. -/
  ready : List Nat := []
  /-- The keys that callers have reserved directly. -/
  held : List Key := []
  /-- The serial numbers of the registrations whose listener was told that they were taken back. -/
  withdrawn : List Nat := []
  /-- What could be seen so far, the last event standing first. -/
  journal : List Entry := []
deriving Inhabited

namespace Publisher

/-- A publisher with an id that has not done anything yet. -/
def fresh (id : String) (listening : Bool) (limit : Option Nat) : Publisher :=
  { registrar := { publisher := id }, listening, limit }

variable (p : Publisher)

/-! ## Tasks and readiness -/

/-- Where a task stands. -/
def stage? (task : Nat) : Option Stage := p.tasks[task]?.map (·.stage)

/-- How a task ended, if it has. -/
def outcome? (task : Nat) : Option Outcome := (p.stage? task).bind Stage.outcome?

/-- Puts a task at a stage. -/
def setStage (task : Nat) (stage : Stage) : Publisher :=
  { p with tasks := p.tasks.modify task fun t => { t with stage } }

/-- The publisher with another registrar. -/
def withRegistrar (registrar : Registrar) : Publisher := { p with registrar }

/-- Makes tasks ready that are not, one after the other. -/
def wake (tasks : List Nat) : Publisher :=
  { p with ready := p.ready ++ tasks.filter (!p.ready.contains ·) }

/-- Writes down what can be seen. -/
def see (entry : Entry) : Publisher := { p with journal := entry :: p.journal }

/-- The tasks that wait until nothing is reserved any more. -/
def waiters : List Nat :=
  (List.range p.tasks.length).filter fun task => (p.stage? task).any Stage.isWaiting

/-- Wakes the tasks that wait until nothing is reserved any more, if nothing is. -/
def wakeIdle : Publisher := if p.registrar.inFlight = 0 then p.wake p.waiters else p

/-! ## Ends of tasks -/

/-- Ends a task that gathers a batch, if the batch is complete and someone waits for it. -/
def gather (task : Nat) (batch : Batch) : Publisher :=
  if batch.isComplete && !batch.abandoned then p.setStage task (.ended batch.outcome) else p

/-- Gives the permit of a member of a batch back: to the first task that waits for one. -/
def releasePermit (parent : Nat) (batch : Batch) : Publisher :=
  match batch.queue with
  | next :: queue =>
    let p := p.setStage parent (.gathering { batch with queue })
    match p.stage? next with
    | some (.queued options definition) =>
      (p.setStage next (.permitted options definition)).wake [next]
    | _ => p
  | [] => p.setStage parent (.gathering { batch with permits := batch.permits.map (· + 1) })

/-- Ends a teardown if it is complete; the registrar is released first. -/
def endDrain (parent : Nat) : Publisher :=
  match p.stage? parent with
  | some (.draining drain) =>
    if drain.isComplete then
      (p.withRegistrar p.registrar.release).setStage parent (.ended drain.outcome)
    else p
  | _ => p

/-- Tells the task that another one is a part of how that one ended. A batch looks at it when its
turn comes; a teardown that is complete by it ends at once. -/
def deliver (parent task : Nat) (outcome : Outcome) : Publisher :=
  match p.stage? parent with
  | some (.gathering batch) =>
    (p.releasePermit parent { batch with outcomes := batch.outcomes ++ [(task, outcome)] }).wake
      [parent]
  | some (.draining drain) =>
    (p.setStage parent (.draining (drain.note task outcome))).endDrain parent
  | _ => p

/-- **Ends a task.** -/
def finish (task : Nat) (outcome : Outcome) : Publisher :=
  match p.tasks[task]?.bind (·.parent) with
  | some parent => (p.setStage task (.ended outcome)).deliver parent task outcome
  | none => p.setStage task (.ended outcome)

/-! ## Publishing -/

/-- **Begins to publish**: checks the names, reserves the key, and has the registry called. The
definition is signed, and the registry's handle is made if it is the first publish to it. -/
def beginPublish (task : Nat) (options : RegistryOptions) (definition : Definition) : Publisher :=
  match options.canonical? with
  | .error failure => p.finish task (.failed failure)
  | .ok options =>
    if definition.name.isEmpty then
      p.finish task (.failed (.invalidArgument "schema" "schema name must not be empty"))
    else
      match p.registrar.reserve options.name definition.name with
      | .error failure => p.finish task (.failed failure)
      | .ok (key, registrar) =>
        let (handle, registrar) := registrar.handleFor options
        let definition := definition.stamp registrar.publisher
        ((p.withRegistrar registrar).setStage task (.publishing key handle definition)).see
          (.publishCall task handle definition)

/-- Begins with a member of a batch: it goes on if it gets a permit at once. -/
def beginMember (task parent : Nat) (options : RegistryOptions) (definition : Definition) :
    Publisher :=
  match p.stage? parent with
  | some (.gathering batch) =>
    match batch.permits with
    | some 0 =>
      (p.setStage parent (.gathering { batch with queue := batch.queue ++ [task] })).setStage task
        (.queued options definition)
    | some (n + 1) =>
      (p.setStage parent (.gathering { batch with permits := some n })).beginPublish task options
        definition
    | none => p.beginPublish task options definition
  | _ => p.beginPublish task options definition

/-- **Begins a batch**: makes a task for each schema. -/
def beginBatch (task : Nat) (options : RegistryOptions) (definitions : List Definition) :
    Publisher :=
  if definitions.isEmpty then p.finish task (.failed .nothingToPublish)
  else
    match options.canonical? with
    | .error failure => p.finish task (.failed failure)
    | .ok options =>
      let permits := p.limit.map (max 1)
      if permits.any (Batch.mostPermits < ·) then
        p.finish task (.broken
          s!"a semaphore may not have more than MAX_PERMITS permits ({Batch.mostPermits})")
      else
        let first := p.tasks.length
        let numbers := List.range' first definitions.length
        let batch : Batch :=
          { registry := options.name, members := numbers.zip (definitions.map (·.name)), permits }
        let members := definitions.map fun definition : Definition =>
          ({ stage := .asked (.publish options definition), parent := some task } : Task)
        let p : Publisher := { p with tasks := p.tasks ++ members }
        (p.setStage task (.gathering batch)).wake numbers

/-- **Takes the answer to a publish**: the reservation becomes a registration or is abandoned. -/
def answerPublish (task : Nat) (answer : Answer) : Publisher :=
  match p.stage? task with
  | some (.publishing key handle _) =>
    match answer with
    | .record record =>
      let (registration, registrar) := p.registrar.register key record handle p.listening
      let p := (p.withRegistrar registrar).wakeIdle
      let p := if registration.listened then p.see (.published registration) else p
      p.finish task (.registered registration)
    | .refused cause =>
      (p.withRegistrar (p.registrar.abandon key)).wakeIdle.finish task
        (.failed (.remote key.registry key.schema cause))
    | .broken message =>
      (p.withRegistrar (p.registrar.abandon key)).wakeIdle.finish task (.broken message)
  | some (.tryingPublish _ _) =>
    match answer with
    | .record record => p.finish task (.recorded record)
    | .refused cause => p.finish task (.refused cause)
    | .broken message => p.finish task (.broken message)
  | _ => p

/-! ## Unpublishing -/

/-- Has the registry called to unpublish. -/
def beginUnpublish (task : Nat) (registration : Registration) : Publisher :=
  (p.setStage task (.unpublishing registration)).see (.unpublishCall task registration)

/-- Tells the listener of a registration that it was taken back, once. -/
def withdraw (registration : Registration) : Publisher :=
  if p.withdrawn.contains registration.serial then p
  else
    let p : Publisher := { p with withdrawn := registration.serial :: p.withdrawn }
    if registration.listened then p.see (.unpublished registration) else p

/-- **Takes the answer to an unpublish**: the registration is removed, or it stays. -/
def answerUnpublish (task : Nat) (answer : Except Cause Unit) : Publisher :=
  match p.stage? task with
  | some (.unpublishing registration) =>
    match answer with
    | .ok () =>
      ((p.withRegistrar (p.registrar.unregister registration)).withdraw registration).finish task
        .done
    | .error cause =>
      p.finish task (.failed (.remote registration.registry registration.schema cause))
  | some (.tryingUnpublish _) =>
    match answer with
    | .ok () => p.finish task .done
    | .error cause => p.finish task (.refused cause)
  | _ => p

/-! ## Closing -/

/-- The failure that a sweep reports for a registration. -/
def sweepFailure (registration : Registration) : Failure :=
  .remote registration.registry registration.schema { text := "registry unavailable" }

/-- Sweeps the registrations: gives the registrar afterwards and what failed. -/
def sweep (failing : List String) (unregisters : Bool) (registrations : List Registration) :
    Registrar × List (Part Failure) :=
  let fails := fun registration : Registration => failing.contains registration.schema
  let removed := if unregisters then registrations.filter (!fails ·) else []
  (removed.foldl Registrar.unregister p.registrar,
    (registrations.filter fails).map fun registration =>
      ⟨registration.schema, registration.registry, sweepFailure registration⟩)

/-- **Begins the teardown** of what is live now. -/
def beginDrain (task : Nat) (teardown : Teardown) : Publisher :=
  let registrations := p.registrar.registrations
  match teardown with
  | .sweeping failing unregisters =>
    let (registrar, parts) := p.sweep failing unregisters registrations
    (p.withRegistrar registrar.release).finish task
      (.ofRemovals registrations.length parts)
  | .unpublishing =>
    if registrations.isEmpty then
      (p.withRegistrar p.registrar.release).finish task .done
    else
      let p : Publisher := { p with ready := task :: p.ready }
      p.setStage task (.draining { rest := registrations })

/-- Waits until nothing is reserved, then begins the teardown. -/
def tearDown (task : Nat) (teardown : Teardown) : Publisher :=
  if p.registrar.inFlight = 0 then p.beginDrain task teardown
  else p.setStage task (.waiting teardown)

/-- **Begins to close**: no more reservations are taken from now on. A registrar that is closed
already is not torn down again. -/
def beginClose (task : Nat) (teardown : Teardown) : Publisher :=
  if p.registrar.closed then p.finish task .done
  else (p.withRegistrar p.registrar.close).tearDown task teardown

/-- Takes up the next registration of a teardown. The task keeps its turn as long as there is one
after it. -/
def drainNext (task : Nat) (drain : Drain) : Publisher :=
  match drain.rest with
  | [] => p
  | registration :: rest =>
    let removal := p.tasks.length
    let drain := { rest, removals := drain.removals ++ [⟨removal, registration, none⟩] }
    let p : Publisher := { p with
      tasks := p.tasks ++ [{ stage := .unpublishing registration, parent := some task }]
      ready := if rest.isEmpty then p.ready else task :: p.ready }
    (p.setStage task (.draining drain)).see (.unpublishCall removal registration)

/-! ## Steps -/

/-- **Asks** for something: a new task, which is ready. -/
def ask (request : Request) : Publisher :=
  let grown : Publisher := { p with tasks := p.tasks ++ [{ stage := .asked request }] }
  grown.wake [p.tasks.length]

/-- Begins what was asked for. -/
def begin (task : Nat) (parent : Option Nat) : Request → Publisher
  | .publish options definition =>
    match parent with
    | some parent => p.beginMember task parent options definition
    | none => p.beginPublish task options definition
  | .publishAll options definitions => p.beginBatch task options definitions
  | .unpublish registration => p.beginUnpublish task registration
  | .close teardown => p.beginClose task teardown
  | .tryPublish handle definition =>
    (p.setStage task (.tryingPublish handle definition)).see (.publishCall task handle definition)
  | .tryUnpublish registration =>
    (p.setStage task (.tryingUnpublish registration)).see (.unpublishCall task registration)

/-- **Runs a task** that is ready until it has to wait. -/
def run (task : Nat) : Publisher :=
  if p.ready.contains task then
    let p : Publisher := { p with ready := p.ready.erase task }
    match p.tasks[task]? with
    | some ⟨.asked request, parent⟩ => p.begin task parent request
    | some ⟨.permitted options definition, _⟩ => p.beginPublish task options definition
    | some ⟨.gathering batch, _⟩ => p.gather task batch
    | some ⟨.waiting teardown, _⟩ => p.tearDown task teardown
    | some ⟨.draining drain, _⟩ => p.drainNext task drain
    | _ => p
  else p

/-- **Gives up** on a batch: nobody waits for its outcome any more, but its tasks go on. -/
def abandon (task : Nat) : Publisher :=
  match p.stage? task with
  | some (.gathering batch) => p.setStage task (.gathering { batch with abandoned := true })
  | _ => p

/-! ## Direct use of the registrar -/

/-- Reserves a key for a caller. -/
def reserve (registry schema : String) : Except Failure (Key × Publisher) := do
  let (key, registrar) ← p.registrar.reserve registry schema
  return (key, { p with registrar, held := key :: p.held })

/-- Drops a reservation that a caller has. -/
def drop (key : Key) : Publisher :=
  if p.held.contains key then
    let p : Publisher := { p with
      registrar := p.registrar.abandon key, held := p.held.erase key }
    p.wakeIdle
  else p

/-- Turns a reservation that a caller has into a registration that is listened to. -/
def register (key : Key) (record : Record) (handle : Handle) : Option (Registration × Publisher) :=
  if p.held.contains key then
    let (registration, registrar) := p.registrar.register key record handle true
    let p : Publisher := { p with registrar, held := p.held.erase key }
    some (registration, p.wakeIdle)
  else none

/-- Unregisters for a caller; says whether something was removed. -/
def unregister (registration : Registration) : Bool × Publisher :=
  (p.registrar.holds registration,
    { p with registrar := p.registrar.unregister registration })

/-- Makes a handle for a caller. -/
def newHandle (options : RegistryOptions) : Handle × Publisher :=
  let (handle, registrar) := p.registrar.newHandle options
  (handle, { p with registrar })

/-- Gives a caller the handle of a registry. -/
def handleFor (options : RegistryOptions) : Handle × Publisher :=
  let (handle, registrar) := p.registrar.handleFor options
  (handle, { p with registrar })

end Publisher
end SchemaHerald
