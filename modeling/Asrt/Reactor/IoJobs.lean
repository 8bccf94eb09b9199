import Asrt.Reactor.Registration
import Asrt.ToMathlib.Machine
import Mathlib.Algebra.BigOperators.Group.Finset.Basic

/-!
# I/O operations and the executor's job count

The reactor and its executor as far as jobs are concerned: sockets start read and write operations,
epoll events queue operations, executor threads run them, the handlers complete, continue or ignore
what they are given, entries are registered and deregistered, and other work of the executor comes
and goes. A handler that continues an operation starts it again; a handler that ignores an event
calls `OnEventIgnored()`.

The ghost state says, for every tag, which directions were started and not yet reported, and whether
the queued or executing operation of the tag carries a job, that is, stands for an arrival that its
completion will settle. The arrival itself is counted by the reactor, the completion by the
executor after the operation.
-/

namespace Asrt.Reactor.IoJobs

/-- The direction of an operation. -/
inductive Direction
  | read
  | write
deriving DecidableEq, Repr

/-- The `OperationType` of a direction. -/
def Direction.opType : Direction → Events
  | .read => .kRead
  | .write => .kWrite

/-- The ghost state of a tag. -/
structure Ghost where
  /-- A read was started and not yet reported. -/
  read : Bool := false
  /-- A write was started and not yet reported. -/
  write : Bool := false
  /-- The queued or executing operation carries a job. -/
  carries : Bool := false
deriving DecidableEq, Repr

namespace Ghost

/-- Some operation was started and not yet reported. -/
def pending (g : Ghost) : Bool := g.read || g.write

/-- An operation is started. -/
def start (g : Ghost) : Direction → Ghost
  | .read => { g with read := true }
  | .write => { g with write := true }

/-- One of the reported events was started. -/
def hit (g : Ghost) (reported : Events) : Bool :=
  (g.read && reported.hasReadEvent) || (g.write && reported.hasWriteEvent)

/-- The events are reported to the handler: what was started of them is not pending any more, and
the operation carries the job if there was any. -/
def report (g : Ghost) (reported : Events) : Ghost where
  read := g.read && !reported.hasReadEvent
  write := g.write && !reported.hasWriteEvent
  carries := g.hit reported

/-- The entry is deregistered: its pending operations will not be reported, and their job is left to
the queued operation. -/
def deregister (g : Ghost) : Ghost := { carries := g.carries || g.pending }

/-- The jobs of a tag: one for its pending operations, and the one its operation carries. -/
def load (g : Ghost) : ℕ := g.pending.toNat + g.carries.toNat

end Ghost

/-- The reactor, the operations in the executor and the executor's other jobs. -/
structure State (H : Type) where
  reactor : EpollReactor H
  /-- The queued I/O operations. -/
  queued : List HandlerTag := []
  /-- The I/O operations whose handlers are executing. -/
  executing : List HandlerTag := []
  /-- The operations that have returned and whose completion the executor has not counted yet. -/
  returned : ℕ := 0
  /-- Ghost: the executor's jobs that are not I/O. -/
  otherJobs : ℕ := 0
  ghost : HandlerTag → Ghost := fun _ => {}

/-- The steps. -/
inductive Action (H : Type)
  /-- The clients open a descriptor. -/
  | openFd (fd : NativeHandle)
  /-- `Register()` for I/O. -/
  | register (fd : NativeHandle) (events : Events) (handler : H) (resources : Bool)
  /-- `Deregister()` -/
  | deregister (tag : HandlerTag) (closeOnDeregister : Bool)
  /-- `OnStartOfOperation()` on a registered entry, from a client or from a handler. -/
  | start (tag : HandlerTag) (direction : Direction) (resources : Bool)
  /-- The reactor thread handles an event. -/
  | event (event : EpollEvent)
  /-- An executor thread takes the first queued operation, up to the call of its handler. -/
  | begin
  /-- The executing handler calls `OnEventIgnored()`. -/
  | ignore (tag : HandlerTag) (ev : Events)
  /-- The handler returns and the operation ends. -/
  | finish (tag : HandlerTag)
  /-- The executor calls `OnJobCompletion()` after an operation. -/
  | complete
  /-- A job that is not I/O arrives. -/
  | otherArrival
  /-- A job that is not I/O is completed. -/
  | otherCompletion
deriving DecidableEq, Repr

namespace State

variable {H : Type}

/-- Replace the ghost state of one tag. -/
def setGhost (σ : State H) (tag : HandlerTag) (g : Ghost) : State H :=
  { σ with ghost := Function.update σ.ghost tag g }

/-- The events that the operation of a tag would report. -/
def eventsToReport (σ : State H) (tag : HandlerTag) : Events :=
  (σ.reactor.operations tag).capturedEvents.intersection
    (σ.reactor.operations tag).monitoredEvents

/-- The first part of an operation. -/
def beginOperation (σ : State H) (tag : HandlerTag) (rest : List HandlerTag) : State H :=
  match σ.reactor.beginOperation tag with
  | (reactor, some (_, reported)) =>
    { σ with reactor, queued := rest, executing := tag :: σ.executing }.setGhost tag
      ((σ.ghost tag).report reported)
  | (reactor, none) =>
    { σ with reactor, queued := rest, returned := σ.returned + 1 }.setGhost tag
      { σ.ghost tag with carries := false }

/-- The step labelled by an action, if it is enabled. -/
def step (σ : State H) : Action H → Option (State H)
  | .openFd fd =>
    some { σ with reactor := { σ.reactor with kernel := σ.reactor.kernel.openFd fd } }
  | .register fd events handler resources =>
    if events.hasIoEvent then
      some { σ with reactor := (σ.reactor.registerImpl .ioEvent fd events handler resources).1 }
    else none
  | .deregister tag closeOnDeregister =>
    match σ.reactor.derigsterImpl tag closeOnDeregister with
    | (reactor, .ok ()) => some ({ σ with reactor }.setGhost tag (σ.ghost tag).deregister)
    | (reactor, .error _) => some { σ with reactor }
  | .start tag direction resources =>
    if (σ.reactor.operations tag).valid then
      some ({ σ with
        reactor := σ.reactor.onStartOfOperation tag direction.opType resources }.setGhost tag
          ((σ.ghost tag).start direction))
    else none
  | .event event =>
    if event.tag < σ.reactor.size then
      let handled := σ.reactor.handleSingleEvent event []
      some { σ with
        reactor := handled.1
        queued := σ.queued ++ if handled.2 = [] then [] else [event.tag] }
    else none
  | .begin =>
    match σ.queued with
    | tag :: rest => some (σ.beginOperation tag rest)
    | [] => none
  | .ignore tag ev =>
    if tag ∈ σ.executing then
      some ({ σ with reactor := σ.reactor.onEventIgnored tag ev }.setGhost tag
        { σ.ghost tag with carries := true })
    else none
  | .finish tag =>
    if tag ∈ σ.executing then
      some ({ σ with
        reactor := σ.reactor.finishOperation tag
        executing := σ.executing.erase tag
        returned := σ.returned + 1 }.setGhost tag { σ.ghost tag with carries := false })
    else none
  | .complete =>
    if 0 < σ.returned then
      some { σ with reactor := σ.reactor.onJobCompletion, returned := σ.returned - 1 }
    else none
  | .otherArrival =>
    some { σ with reactor := σ.reactor.onJobArrival, otherJobs := σ.otherJobs + 1 }
  | .otherCompletion =>
    if 0 < σ.otherJobs then
      some { σ with reactor := σ.reactor.onJobCompletion, otherJobs := σ.otherJobs - 1 }
    else none

end State

/-- The machine: an empty reactor of any size over any open descriptors. -/
def machine (H : Type) : ToMathlib.Machine (State H) (Action H) where
  init σ := ∃ size isOpen, σ = { reactor := { size, kernel := { isOpen } } }
  step := State.step

end Asrt.Reactor.IoJobs
