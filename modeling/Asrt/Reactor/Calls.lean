import Asrt.Reactor.IoJobs
import Asrt.Reactor.SoftwareEvents

/-!
# The reactor through whole calls

The reactor with everything that is called on it: descriptors and software events are registered and
deregistered, operations are started, monitored events are changed, events are handled and the
operations posted for them are executed. A call is one step. An operation is cut where it calls its
handler, which may call the reactor in turn.

A handler that has no use for an event calls `OnEventIgnored()` with it. It does so before it gives
the mutex of the entry up, except for a read event that comes together with a write event; so the
events that are ignored at once are an argument of the start of the operation, and ignoring a read
event is a step of its own.

## Main definitions

* `EpollReactor.doModifyEvent`: the change of monitored events.
* `EpollReactor.registerSoftwareEvent`: the registration of a software event.
* `machine`: the reactor and its users, as a machine.
-/

namespace Asrt.Reactor

/-- `EventType::kEdge` -/
def Events.kEdge : Events := { eventMask := EPOLLET }

/-- `EventChangeType` -/
inductive EventChangeType
  | kAddEvent
  | kRemoveEvent
  | kSetEvent
deriving DecidableEq, Repr

namespace EpollReactor

variable {H : Type}

/-- `RegisterOneShotSoftwareEvent()` and `RegisterPersistentSoftwareEvent()` -/
def registerSoftwareEvent (r : EpollReactor H) (isOneshot : Bool) (handler : H) :
    EpollReactor H × Except ErrorCode HandlerTag :=
  if isOneshot then
    r.registerImpl .oneShotSoftwareEvent kInvalidNativeHandle .oneShotSoftwareEvent handler true
  else
    r.registerImpl .persistentSoftwareEvent kInvalidNativeHandle .persistentSoftwareEvent handler
      true

/-- The monitored events after a change. -/
def changedEvent (changeHow : EventChangeType) (monitoredEvents ev : Events) : Events :=
  match changeHow with
  | .kAddEvent => monitoredEvents.union ev
  | .kRemoveEvent => monitoredEvents.consume ev
  | .kSetEvent => ev

/-- Whether a change of the monitored events needs a call of epoll. Reading is always monitored, and
no change of the read event needs one unless the events are set. -/
def updateEpoll (changeHow : EventChangeType) (monitoredEvents ev : Events) : Bool :=
  match changeHow with
  | .kAddEvent =>
    (ev.hasEvent .kEdge && !monitoredEvents.hasEvent .kEdge) ||
      (ev.hasEvent .kWrite && !monitoredEvents.hasEvent .kWrite)
  | .kRemoveEvent =>
    (ev.hasEvent .kEdge && monitoredEvents.hasEvent .kEdge) ||
      (ev.hasEvent .kWrite && monitoredEvents.hasEvent .kWrite)
  | .kSetEvent => ev ≠ monitoredEvents

/-- `DoModifyEvent()`: the entry is changed only if epoll has taken the new mask. -/
def doModifyEvent (r : EpollReactor H) (changeHow : EventChangeType) (tag : HandlerTag)
    (ev : Events) (resources : Bool) : EpollReactor H × Except ErrorCode Unit :=
  let entry := r.operations tag
  if !entry.valid then (r, .error .reactorEntryInvalid)
  else
    let changed := changedEvent changeHow entry.monitoredEvents ev
    if !updateEpoll changeHow entry.monitoredEvents ev then
      (r.setEntry tag { entry with monitoredEvents := changed }, .ok ())
    else
      match r.kernel.epollModify entry.ioSource
          ⟨changed.eventMask ||| EPOLLIN ||| EPOLLPRI, tag⟩ resources with
      | .error ec => (r, .error ec)
      | .ok kernel =>
        ({ r with kernel }.setEntry tag { entry with monitoredEvents := changed }, .ok ())

end EpollReactor

namespace Calls

open IoJobs (Direction)

/-- The reactor and the operations in the executor. -/
structure State (H : Type) where
  reactor : EpollReactor H
  /-- The posted operations. -/
  queued : List Operation := []
  /-- The operations whose handlers are executing. -/
  executing : List Operation := []

/-- The steps. -/
inductive Action (H : Type)
  /-- A descriptor is opened. -/
  | openFd (fd : NativeHandle)
  /-- A descriptor is closed. -/
  | closeFd (fd : NativeHandle)
  /-- `Register()` -/
  | register (fd : NativeHandle) (events : Events) (handler : H) (resources : Bool)
  /-- `RegisterOneShotSoftwareEvent()` or `RegisterPersistentSoftwareEvent()` -/
  | registerSoftwareEvent (isOneshot : Bool) (handler : H)
  /-- `Deregister()` -/
  | deregister (tag : HandlerTag) (closeOnDeregister : Bool)
  /-- `DeregisterSoftwareEvent()` -/
  | deregisterSoftwareEvent (tag : HandlerTag)
  /-- `TriggerSoftwareEvent()` -/
  | trigger (tag : HandlerTag)
  /-- `OnStartOfOperation()` on a registered entry. -/
  | start (tag : HandlerTag) (direction : Direction) (resources : Bool)
  /-- `AddMonitoredEvent()`, `RemoveMonitoredEvent()` or `SetMonitoredEvent()` -/
  | modify (changeHow : EventChangeType) (tag : HandlerTag) (ev : Events) (resources : Bool)
  /-- The reactor thread handles an event of epoll. -/
  | event (event : EpollEvent)
  /-- The reactor thread handles the software events. -/
  | softwareEvents
  /-- An executor thread starts a posted operation, up to the call of its handler, which may ignore
  some of the events it is given. -/
  | begin (op : Operation) (ignored : Option Events)
  /-- An executing handler ignores a read event. -/
  | ignoreRead (tag : HandlerTag)
  /-- The handler of an operation returns, and the operation ends. -/
  | finish (op : Operation)
deriving DecidableEq, Repr

namespace State

variable {H : Type}

/-- The first part of the operation of an I/O entry. -/
def beginIo (s : State H) (tag : HandlerTag) (ignored : Option Events) (queued : List Operation) :
    State H :=
  match s.reactor.beginOperation tag with
  | (reactor, none) => { s with reactor, queued }
  | (reactor, some (_, reported)) =>
    { s with
      reactor :=
        match ignored with
        | none => reactor
        | some ev => reactor.onEventIgnored tag (reported.intersection ev)
      queued
      executing := .ioEvent tag :: s.executing }

/-- The step labelled by an action, if it is enabled. -/
def step (s : State H) : Action H → Option (State H)
  | .openFd fd =>
    some { s with reactor := { s.reactor with kernel := s.reactor.kernel.openFd fd } }
  | .closeFd fd =>
    some { s with reactor := { s.reactor with kernel := s.reactor.kernel.closeFd fd } }
  | .register fd events handler resources =>
    some { s with
      reactor := (s.reactor.registerImpl .ioEvent fd events handler resources).1 }
  | .registerSoftwareEvent isOneshot handler =>
    some { s with reactor := (s.reactor.registerSoftwareEvent isOneshot handler).1 }
  | .deregister tag closeOnDeregister =>
    some { s with reactor := (s.reactor.derigsterImpl tag closeOnDeregister).1 }
  | .deregisterSoftwareEvent tag =>
    some { s with reactor := (s.reactor.deregisterSoftwareEvent tag).1 }
  | .trigger tag => some { s with reactor := (s.reactor.triggerSoftwareEvent tag).1 }
  | .start tag direction resources =>
    if (s.reactor.operations tag).valid then
      some { s with reactor := s.reactor.onStartOfOperation tag direction.opType resources }
    else none
  | .modify changeHow tag ev resources =>
    some { s with reactor := (s.reactor.doModifyEvent changeHow tag ev resources).1 }
  | .event event =>
    if event.tag < s.reactor.size then
      some { s with
        reactor := (s.reactor.handleSingleEvent event s.queued).1
        queued := (s.reactor.handleSingleEvent event s.queued).2 }
    else none
  | .softwareEvents =>
    some { s with
      reactor := (s.reactor.handleSoftwareEvents s.queued).1
      queued := (s.reactor.handleSoftwareEvents s.queued).2.1 }
  | .begin op ignored =>
    if op ∈ s.queued then
      match op with
      | .ioEvent tag => some (s.beginIo tag ignored (s.queued.erase op))
      | .softwareEvent tag =>
        some { s with
          reactor := s.reactor.beginSoftwareOperation tag
          queued := s.queued.erase op
          executing := op :: s.executing }
      -- the timer has no entry in the table
      | .timer => some { s with queued := s.queued.erase op, executing := op :: s.executing }
    else none
  | .ignoreRead tag =>
    if .ioEvent tag ∈ s.executing then
      some { s with reactor := s.reactor.onEventIgnored tag .kRead }
    else none
  | .finish op =>
    if op ∈ s.executing then
      let executing := s.executing.erase op
      match op with
      | .ioEvent tag => some { s with reactor := s.reactor.finishOperation tag, executing }
      | .softwareEvent tag =>
        some { s with reactor := s.reactor.finishSoftwareOperation tag, executing }
      | .timer => some { s with executing }
    else none

end State

/-- The reactor and its users. Initially nothing is registered. -/
def machine (H : Type) : ToMathlib.Machine (State H) (Action H) where
  init s := ∃ size isOpen, s = { reactor := { size, kernel := { isOpen } } }
  step := State.step

/-- What the start of an operation does to the reactor: nothing if the entry is not registered, the
cleanup if there is nothing to report, or else it consumes the reported events, and the handler
monitors again those that it ignores. -/
theorem beginIo_cases {H : Type} (s : State H) (tag : HandlerTag) (ignored : Option Events)
    (queued : List Operation) :
    ((s.reactor.operations tag).valid = false ∧
      (s.beginIo tag ignored queued).reactor = s.reactor) ∨
    (s.reactor.operations tag).valid = true ∧
      ((s.beginIo tag ignored queued).reactor = s.reactor.cleanupOperation tag ∨
        ∃ reported ev jobCount,
          reported = (s.reactor.operations tag).capturedEvents.intersection
            (s.reactor.operations tag).monitoredEvents ∧
          (s.beginIo tag ignored queued).reactor =
            { s.reactor with jobCount }.setEntry tag { s.reactor.operations tag with
              monitoredEvents := ((s.reactor.operations tag).monitoredEvents.consume
                reported).union (reported.intersection ev)
              asyncOperationOngoing := false
              executionInProgress := true }) := by
  rcases EpollReactor.beginOperation_cases s.reactor tag with
    ⟨hvalid, heq⟩ | ⟨hvalid, heq⟩ | ⟨hvalid, heq⟩
  · exact .inl ⟨hvalid, by simp [State.beginIo, heq]⟩
  · exact .inr ⟨hvalid, .inl (by simp [State.beginIo, heq])⟩
  · refine .inr ⟨hvalid, .inr ?_⟩
    simp only [State.beginIo, heq]
    cases ignored with
    | none =>
      -- nothing is monitored again
      refine ⟨_, {}, s.reactor.jobCount, rfl, ?_⟩
      simp [Events.union, Events.add, Events.intersection, Events.ofMask]
    | some ev =>
      refine ⟨_, ev, Executor.fetchAdd s.reactor.jobCount 1, rfl, ?_⟩
      simp [EpollReactor.onEventIgnored, EpollReactor.setEntry, EpollReactor.onJobArrival]

end Calls

end Asrt.Reactor
