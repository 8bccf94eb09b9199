import Asrt.Executor.Basic
import Asrt.Os
import Asrt.Reactor.Events

/-!
# The epoll reactor

`EpollReactor` (`reactor/epoll_reactor.hpp`): the table of operation entries with its first-fit slot
allocator, registration and deregistration, the operation that the executor runs for an I/O event,
and the handling of a batch of epoll events.

The operation of an I/O entry is split at the call of the handler, which runs user code with the
entry's mutex released: `beginOperation` is the part before it and `finishOperation` the part after
it. Handlers are values of an arbitrary type; `none` is an empty handler.
-/

namespace Asrt.Reactor

/-- `HandlerTag`, an index into the operation table or one of the two reserved tags. -/
abbrev HandlerTag := ℕ

/-- `kReactorUnblockTag` -/
def kReactorUnblockTag : HandlerTag := 2 ^ 32 - 1

/-- `kTimerTag` -/
def kTimerTag : HandlerTag := 2 ^ 32 - 2

/-- `OperationEntry`. The sequence number is never read and is left out. -/
structure OperationEntry (H : Type) where
  /-- `io_source_` -/
  ioSource : NativeHandle := kInvalidNativeHandle
  /-- `monitored_events_` -/
  monitoredEvents : Events := {}
  /-- `captured_events_` -/
  capturedEvents : Events := {}
  /-- `handler_` -/
  handler : Option H := none
  /-- `async_operation_ongoing_` -/
  asyncOperationOngoing : Bool := false
  /-- `valid_` -/
  valid : Bool := false
  /-- `execution_in_progress_` -/
  executionInProgress : Bool := false
  /-- `handler_posted_` -/
  handlerPosted : Bool := false
  /-- `is_software_event_oneshot_` -/
  isSoftwareEventOneshot : Bool := false
  /-- `release_handler_memory_` -/
  releaseHandlerMemory : Bool := false
  /-- `close_io_source_` -/
  closeIoSource : Bool := false
deriving DecidableEq, Repr

/-- An operation that the reactor hands to the executor. -/
inductive Operation
  | ioEvent (tag : HandlerTag)
  | softwareEvent (tag : HandlerTag)
  | timer
deriving DecidableEq, Repr

/-- `EpollReactor`, with the kernel below it and the job counter of its executor. -/
structure EpollReactor (H : Type) where
  /-- `operations_.size()` -/
  size : ℕ
  /-- `operations_` -/
  operations : HandlerTag → OperationEntry H := fun _ => {}
  /-- `used_operations_end_`, as an index. -/
  usedOperationsEnd : ℕ := 0
  /-- `triggered_software_events_` -/
  triggeredSoftwareEvents : List HandlerTag := []
  kernel : Kernel := {}
  /-- `executor_.job_count_` -/
  jobCount : ℕ := 0

/-- `EventRegistrationType` -/
inductive EventRegistrationType
  | ioEvent
  | oneShotSoftwareEvent
  | persistentSoftwareEvent
deriving DecidableEq, Repr

/-- `UnblockReason` -/
inductive UnblockReason
  | softwareEvent
  | timeout
  | unblocked
  | eventsHandled
deriving DecidableEq, Repr

namespace EpollReactor

variable {H : Type}

/-- Replace one entry of the operation table. -/
def setEntry (r : EpollReactor H) (tag : HandlerTag) (entry : OperationEntry H) : EpollReactor H :=
  { r with operations := Function.update r.operations tag entry }

/-- `executor_.OnJobArrival()` -/
def onJobArrival (r : EpollReactor H) : EpollReactor H :=
  { r with jobCount := Executor.fetchAdd r.jobCount 1 }

/-- `executor_.OnJobCompletion()`, as far as the counter is concerned. -/
def onJobCompletion (r : EpollReactor H) : EpollReactor H :=
  { r with jobCount := Executor.fetchSub r.jobCount 1 }

/-- An arrival increments the counter while the jobs fit. -/
theorem onJobArrival_eq {r : EpollReactor H} (h : r.jobCount + 1 < 2 ^ 32) :
    r.onJobArrival = { r with jobCount := r.jobCount + 1 } := by
  simp only [onJobArrival, Executor.fetchAdd_eq h]

/-- A completion decrements a positive counter. -/
theorem onJobCompletion_eq {r : EpollReactor H} (hpos : 0 < r.jobCount)
    (hlt : r.jobCount < 2 ^ 32) : r.onJobCompletion = { r with jobCount := r.jobCount - 1 } := by
  simp only [onJobCompletion, Executor.fetchSub_one hpos hlt]

/-! ### Slot allocation and registration -/

/-- The loop of `FindFreeOperationSlot()` over the entries still to visit, with the position found
so far and the last entry in use. -/
def findFreeOperationSlotLoop (operations : HandlerTag → OperationEntry H)
    (ioSource : NativeHandle) :
    List ℕ → Option ℕ → Option ℕ → Except ErrorCode (Option ℕ × Option ℕ)
  | [], position, lastUsedEntry => .ok (position, lastUsedEntry)
  | it :: rest, position, lastUsedEntry =>
    let entry := operations it
    if !entry.valid then
      if !entry.handlerPosted then
        if position.isNone then
          findFreeOperationSlotLoop operations ioSource rest (some it) (some it)
        else findFreeOperationSlotLoop operations ioSource rest position lastUsedEntry
      else findFreeOperationSlotLoop operations ioSource rest position (some it)
    else if entry.ioSource = ioSource then .error .apiError
    else findFreeOperationSlotLoop operations ioSource rest position (some it)

/-- `FindFreeOperationSlot()`: the first entry that is neither valid nor posted, looking no further
than one past the entries in use, whose end is updated on the way. -/
def findFreeOperationSlot (r : EpollReactor H) (ioSource : NativeHandle) :
    EpollReactor H × Except ErrorCode HandlerTag :=
  match findFreeOperationSlotLoop r.operations ioSource
      (List.range (min (r.usedOperationsEnd + 1) r.size)) none none with
  | .error ec => (r, .error ec)
  | .ok (position, lastUsedEntry) =>
    let r :=
      if r.usedOperationsEnd ≠ r.size then
        { r with usedOperationsEnd := (lastUsedEntry.map (· + 1)).getD r.usedOperationsEnd }
      else r
    match position with
    | none => (r, .error .capacityExceeded)
    | some tag => (r, .ok tag)

/-- `RegisterImpl()`. `resources` is the outcome of the epoll call. -/
def registerImpl (r : EpollReactor H) (regType : EventRegistrationType) (ioSource : NativeHandle)
    (events : Events) (handler : H) (resources : Bool) :
    EpollReactor H × Except ErrorCode HandlerTag :=
  let (r, slot) := r.findFreeOperationSlot ioSource
  match slot with
  | .error ec => (r, .error ec)
  | .ok tag =>
    let eager := regType = .ioEvent ∧ events.hasIoEvent
    -- reading is always monitored
    let monitoredEvents := if eager then events.add (EPOLLIN ||| EPOLLPRI) else events
    let added :=
      if eager then r.kernel.epollAdd ioSource ⟨monitoredEvents.eventMask, tag⟩ resources
      else .ok r.kernel
    match added with
    | .error ec => (r, .error ec)
    | .ok kernel =>
      let entry := r.operations tag
      let entry := { entry with
        isSoftwareEventOneshot :=
          entry.isSoftwareEventOneshot || (regType = .oneShotSoftwareEvent)
        ioSource
        handler := some handler
        valid := true
        monitoredEvents
        capturedEvents := {}
        handlerPosted := false }
      ({ r with kernel }.setEntry tag entry, .ok tag)

/-- `DerigsterImpl()`: the handler and, if asked for, the descriptor are released at once, or by the
operation that is executing. -/
def derigsterImpl (r : EpollReactor H) (tag : HandlerTag) (closeOnDeregister : Bool) :
    EpollReactor H × Except ErrorCode Unit :=
  let entry := r.operations tag
  if !entry.valid then (r, .error .reactorEntryInvalid)
  else
    match r.kernel.epollRemove entry.ioSource with
    | .error ec => (r, .error ec)
    | .ok kernel =>
      if !entry.executionInProgress then
        let kernel := if closeOnDeregister then kernel.closeFd entry.ioSource else kernel
        ({ r with kernel }.setEntry tag { entry with handler := none, valid := false }, .ok ())
      else
        ({ r with kernel }.setEntry tag { entry with
          releaseHandlerMemory := true
          closeIoSource := entry.closeIoSource || closeOnDeregister
          valid := false }, .ok ())

/-- `IsInUseImpl()` -/
def isInUseImpl (r : EpollReactor H) (tag : HandlerTag) : Bool :=
  (r.operations tag).valid || (r.operations tag).executionInProgress

/-! ### Operations -/

/-- The part of `OnStartOfOperation()` that concerns the entry and the executor. -/
def markOperationStarted (r : EpollReactor H) (tag : HandlerTag) (opType : Events) :
    EpollReactor H :=
  let operation := r.operations tag
  let operation := { operation with monitoredEvents := operation.monitoredEvents.union opType }
  if !operation.asyncOperationOngoing then
    (r.setEntry tag { operation with asyncOperationOngoing := true }).onJobArrival
  -- the requested event is reported together with the one already requested
  else r.setEntry tag operation

/-- `OnStartOfOperation()`. `resources` is the outcome of the epoll update that a first write needs;
its failure is only logged. -/
def onStartOfOperation (r : EpollReactor H) (tag : HandlerTag) (opType : Events)
    (resources : Bool) : EpollReactor H :=
  let updateEpoll := opType = .kWrite ∧ !(r.operations tag).monitoredEvents.hasWriteEvent
  let r := r.markOperationStarted tag opType
  let operation := r.operations tag
  if updateEpoll then
    match r.kernel.epollModify operation.ioSource
        ⟨operation.monitoredEvents.eventMask ||| EPOLLIN ||| EPOLLPRI, tag⟩ resources with
    | .ok kernel => { r with kernel }
    | .error _ => r
  else r

/-- `OnEventIgnored()` -/
def onEventIgnored (r : EpollReactor H) (tag : HandlerTag) (ev : Events) : EpollReactor H :=
  let operation := r.operations tag
  (r.setEntry tag { operation with
    monitoredEvents := operation.monitoredEvents.union ev }).onJobArrival

/-- The cleanup at the end of the operation of an I/O entry: a deregistration that came while the
handler was executing is completed, and the entry may be posted again. -/
def cleanupOperation (r : EpollReactor H) (tag : HandlerTag) : EpollReactor H :=
  let op := r.operations tag
  let kernel := if op.closeIoSource then r.kernel.closeFd op.ioSource else r.kernel
  { r with kernel }.setEntry tag { op with
    handler := if op.releaseHandlerMemory then none else op.handler
    releaseHandlerMemory := false
    closeIoSource := false
    handlerPosted := false }

/-- The operation of an I/O entry after its handler has returned. -/
def finishOperation (r : EpollReactor H) (tag : HandlerTag) : EpollReactor H :=
  (r.setEntry tag { r.operations tag with executionInProgress := false }).cleanupOperation tag

/-- The operation of an I/O entry up to the call of the handler, with the handler that is called and
the events it is given. Nothing is called for an entry that is not registered any more, and the
posted flag of such an entry stays as it is; without events to report the operation ends at once. -/
def beginOperation (r : EpollReactor H) (tag : HandlerTag) :
    EpollReactor H × Option (Option H × Events) :=
  let op := r.operations tag
  if !op.valid then (r, none)
  else
    let eventsToReport := op.capturedEvents.intersection op.monitoredEvents
    if !eventsToReport.empty then
      (r.setEntry tag { op with
        monitoredEvents := op.monitoredEvents.consume eventsToReport
        asyncOperationOngoing := false
        executionInProgress := true }, some (op.handler, eventsToReport))
    else (r.cleanupOperation tag, none)

/-! ### Events -/

/-- `HandleSingleEvent()`: the entry's captured events are overwritten, and its operation is queued
if the entry is valid, not yet posted and interested in one of the events. -/
def handleSingleEvent (r : EpollReactor H) (event : EpollEvent) (opQueue : List Operation) :
    EpollReactor H × List Operation :=
  let capturedEvents := Events.ofMask event.events
  let current := { r.operations event.tag with capturedEvents }
  let eventsToReport := capturedEvents.intersection current.monitoredEvents
  if !current.valid then (r.setEntry event.tag current, opQueue)
  else if current.handlerPosted then (r.setEntry event.tag current, opQueue)
  else if eventsToReport.empty then (r.setEntry event.tag current, opQueue)
  else
    (r.setEntry event.tag { current with handlerPosted := true },
      opQueue ++ [.ioEvent event.tag])

/-- The loop of `HandleSoftwareEvents()` over the triggered tags, with the number handled so far. -/
def handleSoftwareEventsLoop :
    List HandlerTag → EpollReactor H → List Operation → ℕ → EpollReactor H × List Operation × ℕ
  | [], r, opQueue, handledEvents => (r, opQueue, handledEvents)
  | tag :: tags, r, opQueue, handledEvents =>
    let op := r.operations tag
    if !op.valid then handleSoftwareEventsLoop tags r opQueue handledEvents
    else
      let r := r.setEntry tag { op with handlerPosted := true }
      let r := if !op.isSoftwareEventOneshot then r.onJobArrival else r
      handleSoftwareEventsLoop tags r (opQueue ++ [.softwareEvent tag]) (handledEvents + 1)

/-- `HandleSoftwareEvents()` -/
def handleSoftwareEvents (r : EpollReactor H) (opQueue : List Operation) :
    EpollReactor H × List Operation × ℕ :=
  handleSoftwareEventsLoop r.triggeredSoftwareEvents r opQueue 0

end EpollReactor

end Asrt.Reactor
