import Asrt.Reactor.EventBatch
import Asrt.Reactor.Registration
import Asrt.ToMathlib.Machine

/-!
# The life cycle of I/O registrations

The reactor with the threads that use it at the same time: a thread in `Register()`, threads that
call `Deregister()`, the reactor thread with a batch of events from `epoll_wait()`, and executor
threads that run posted operations. No software events are registered.

`RegisterImpl()` holds `registration_mtx_`, so there is one such call at a time. It takes the mutex
of an entry while `FindFreeOperationSlot()` looks at it, but not for the writes to the entry it has
found. The call is therefore cut into one step for each entry it visits, one for the epoll call and
one for each write. All other operations on an entry hold its mutex and are one step, except that an
operation gives the mutex up while its handler runs.

Each registration brings a handler of its own, so the handlers of the model are the names of the
registrations. The ghost state records what becomes of every registration.

## Main definitions

* `State.registerStep`: what `RegisterImpl()` does next.
* `machine`: the reactor and its threads, as a machine.

## Main results

* `completes_registerImpl`: the steps of a call that is not interrupted make up `RegisterImpl()`.
-/

namespace Asrt.Reactor.LifeCycle

/-- The name of a registration and of its handler. -/
abbrev RegistrationId := ℕ

/-- The members of an entry that `RegisterImpl()` writes. -/
inductive EntryField
  | ioSource
  | handler
  | valid
  | monitoredEvents
  | capturedEvents
  | handlerPosted
deriving DecidableEq, Repr

/-- The member that is written next. -/
def EntryField.next : EntryField → Option EntryField
  | ioSource => some handler
  | handler => some valid
  | valid => some monitoredEvents
  | monitoredEvents => some capturedEvents
  | capturedEvents => some handlerPosted
  | handlerPosted => none

/-- Where a call of `RegisterImpl()` stands. -/
inductive RegisterStage
  /-- `FindFreeOperationSlot()` has the given entries still to visit. -/
  | visit (its : List ℕ) (position lastUsedEntry : Option ℕ)
  /-- The slot is found, and the descriptor is added to epoll next. -/
  | add (tag : HandlerTag)
  /-- The given member of the entry is written next. -/
  | write (tag : HandlerTag) (field : EntryField)
deriving DecidableEq, Repr

/-- The slot that a call of `RegisterImpl()` has found. -/
def RegisterStage.slot : RegisterStage → Option HandlerTag
  | .visit _ position _ => position
  | .add tag => some tag
  | .write tag _ => some tag

/-- A call of `RegisterImpl()` for an I/O event. -/
structure RegisterCall where
  id : RegistrationId
  ioSource : NativeHandle
  events : Events
  stage : RegisterStage
deriving DecidableEq, Repr

/-- The local `monitored_events` -/
def RegisterCall.monitoredEvents (call : RegisterCall) : Events :=
  if call.events.hasIoEvent then call.events.add (EPOLLIN ||| EPOLLPRI) else call.events

/-- The entry after one write of `RegisterImpl()`. -/
def RegisterCall.write (call : RegisterCall) (entry : OperationEntry RegistrationId) :
    EntryField → OperationEntry RegistrationId
  | .ioSource => { entry with ioSource := call.ioSource }
  | .handler => { entry with handler := some call.id }
  | .valid => { entry with valid := true }
  | .monitoredEvents => { entry with monitoredEvents := call.monitoredEvents }
  | .capturedEvents => { entry with capturedEvents := {} }
  | .handlerPosted => { entry with handlerPosted := false }

/-- One iteration of the loop of `FindFreeOperationSlot()`: the position found so far and the last
entry in use, or the error of a descriptor that is registered already. -/
def visitEntry (ioSource : NativeHandle) (it : ℕ) (entry : OperationEntry RegistrationId)
    (position lastUsedEntry : Option ℕ) : Except ErrorCode (Option ℕ × Option ℕ) :=
  if !entry.valid then
    if !entry.handlerPosted then
      if position.isNone then .ok (some it, some it) else .ok (position, lastUsedEntry)
    else .ok (position, some it)
  else if entry.ioSource = ioSource then .error .apiError
  else .ok (position, some it)

/-- An iteration of `FindFreeOperationSlot()` finds a free entry or keeps what it has found. -/
theorem visitEntry_ok {ioSource : NativeHandle} {it : ℕ} {position lastUsedEntry : Option ℕ}
    {found : Option ℕ × Option ℕ} {e : OperationEntry RegistrationId} {tag : HandlerTag}
    (h : visitEntry ioSource it e position lastUsedEntry = .ok found)
    (hfound : found.1 = some tag) :
    position = some tag ∨ it = tag ∧ e.valid = false ∧ e.handlerPosted = false := by
  unfold visitEntry at h
  split_ifs at h with hvalid hposted hnone
  · obtain rfl := Except.ok.inj h
    exact .inr ⟨Option.some.inj hfound, by simpa using hvalid, by simpa using hposted⟩
  · obtain rfl := Except.ok.inj h
    exact .inl hfound
  · obtain rfl := Except.ok.inj h
    exact .inl hfound
  · obtain rfl := Except.ok.inj h
    exact .inl hfound

/-- Ghost: what has become of a registration. -/
structure Registration where
  /-- The tag that `Register()` has returned. -/
  tag : Option HandlerTag := none
  ioSource : NativeHandle := kInvalidNativeHandle
  /-- `Deregister()` has returned success. -/
  deregistered : Bool := false
  /-- `Deregister()` was asked to close the descriptor. -/
  closeRequested : Bool := false
  /-- How often the memory of the handler has been released. -/
  released : ℕ := 0
  /-- The descriptors that the reactor has closed for the registration. -/
  closed : List NativeHandle := []
deriving DecidableEq, Repr

/-- An event that `epoll_wait()` has returned. -/
structure Report where
  event : EpollEvent
  /-- Ghost: the registration for which the kernel reports it. -/
  registration : RegistrationId
deriving DecidableEq, Repr

/-- The reactor and the threads that use it. -/
structure State where
  reactor : EpollReactor RegistrationId
  /-- The call of `RegisterImpl()` that holds `registration_mtx_`. -/
  registering : Option RegisterCall := none
  /-- The events of the batch that the reactor thread has still to handle. -/
  batch : List Report := []
  /-- The tags of the posted operations. -/
  queued : List HandlerTag := []
  /-- The tags of the operations whose handlers are running, with the handlers. -/
  executing : List (HandlerTag × Option RegistrationId) := []
  /-- Ghost: the next unused name. -/
  nextId : RegistrationId := 0
  /-- Ghost: the history of the registrations. -/
  registrations : RegistrationId → Registration := fun _ => {}
  /-- Ghost: the registration that last set the interest in a descriptor. -/
  interestOwner : NativeHandle → RegistrationId := fun _ => 0
  /-- Ghost: the registration that last made the entry valid. -/
  registrant : HandlerTag → RegistrationId := fun _ => 0

/-- The steps. -/
inductive Action
  /-- A client opens a descriptor. -/
  | openFd (fd : NativeHandle)
  /-- A client closes a descriptor of its own. -/
  | closeFd (fd : NativeHandle)
  /-- A thread calls `Register()` and takes `registration_mtx_`. -/
  | register (fd : NativeHandle) (events : Events)
  /-- The next step of the call. `resources` is the outcome of the epoll call. -/
  | registerStep (resources : Bool)
  /-- `Deregister()` with the tag of a registration. -/
  | deregister (id : RegistrationId) (closeOnDeregister : Bool)
  /-- `OnStartOfOperation()` on a registered entry, from a client or from a handler. -/
  | start (tag : HandlerTag) (opType : Events) (resources : Bool)
  /-- `OnEventIgnored()` from a handler. -/
  | ignore (tag : HandlerTag) (ev : Events)
  /-- `ConsumeObservationStatusUnsafe()` -/
  | consume (tag : HandlerTag) (ev : Events)
  /-- `epoll_wait()` returns events of the given descriptors. -/
  | wait (reports : List (NativeHandle × BitVec 32))
  /-- `HandleSingleEvent()` on the next event of the batch. -/
  | handleEvent
  /-- A wake-up event ends the pass; the rest of the batch is dropped. -/
  | abandon
  /-- An executor thread starts a posted operation, up to the call of its handler. -/
  | begin (tag : HandlerTag)
  /-- The handler that an operation has called returns, and the operation ends. -/
  | finish (tag : HandlerTag) (handler : Option RegistrationId)
deriving DecidableEq, Repr

namespace State

/-- Replace the entry of a registration in the history. -/
def setRegistration (s : State) (id : RegistrationId) (g : Registration) : State :=
  { s with registrations := Function.update s.registrations id g }

/-- Replace the reactor; a changed interest in a descriptor belongs to the given registration. -/
def setInterest (s : State) (reactor : EpollReactor RegistrationId) (id : RegistrationId) : State :=
  { s with
    reactor
    interestOwner := fun fd =>
      if reactor.kernel.interest fd = s.reactor.kernel.interest fd then s.interestOwner fd else id }

/-- Record in the history that the handler of an entry is released and its descriptor closed. -/
def settle (s : State) (tag : HandlerTag) (release close : Bool) : State :=
  match (s.reactor.operations tag).handler with
  | none => s
  | some id =>
    s.setRegistration id { s.registrations id with
      released := (s.registrations id).released + release.toNat
      closed := (s.registrations id).closed ++
        if close then [(s.reactor.operations tag).ioSource] else [] }

/-- What `RegisterImpl()` does next. -/
def registerStep (s : State) (call : RegisterCall) (resources : Bool) : State :=
  match call.stage with
  | .visit (it :: its) position lastUsedEntry =>
    match visitEntry call.ioSource it (s.reactor.operations it) position lastUsedEntry with
    | .error _ => { s with registering := none }
    | .ok (position, lastUsedEntry) =>
      { s with registering := some { call with stage := .visit its position lastUsedEntry } }
  | .visit [] position lastUsedEntry =>
    let reactor :=
      if s.reactor.usedOperationsEnd ≠ s.reactor.size then
        { s.reactor with
          usedOperationsEnd := (lastUsedEntry.map (· + 1)).getD s.reactor.usedOperationsEnd }
      else s.reactor
    match position with
    | none => { s with reactor, registering := none }
    | some tag => { s with reactor, registering := some { call with stage := .add tag } }
  | .add tag =>
    if call.events.hasIoEvent then
      match s.reactor.kernel.epollAdd call.ioSource ⟨call.monitoredEvents.eventMask, tag⟩
          resources with
      | .error _ => { s with registering := none }
      | .ok kernel =>
        { s with registering := some { call with stage := .write tag .ioSource } }.setInterest
          { s.reactor with kernel } call.id
    else { s with registering := some { call with stage := .write tag .ioSource } }
  | .write tag field =>
    let s := { s with
      reactor := s.reactor.setEntry tag (call.write (s.reactor.operations tag) field)
      registrant :=
        if field = EntryField.valid then Function.update s.registrant tag call.id
        else s.registrant }
    match field.next with
    | some next => { s with registering := some { call with stage := .write tag next } }
    | none =>
      { s with registering := none }.setRegistration call.id
        { tag := some tag, ioSource := call.ioSource }

/-- `Deregister()`, by the client that made the registration. -/
def deregister (s : State) (id : RegistrationId) (tag : HandlerTag) (closeOnDeregister : Bool) :
    State :=
  match s.reactor.derigsterImpl tag closeOnDeregister with
  | (reactor, .error _) => { s with reactor }
  | (reactor, .ok ()) =>
    let s := s.setRegistration id { s.registrations id with
      deregistered := true, closeRequested := closeOnDeregister }
    let s := if (s.reactor.operations tag).executionInProgress then s
      else s.settle tag true closeOnDeregister
    { s with reactor }

/-- The report of an event of a descriptor, if the descriptor is in the interest list. -/
def report (s : State) (fd : NativeHandle) (mask : BitVec 32) : Option Report :=
  (s.reactor.kernel.interest fd).map fun interest =>
    { event := ⟨mask, interest.tag⟩, registration := s.interestOwner fd }

/-- The end of an operation: what its entry says is left to do is done. -/
def cleanup (s : State) (tag : HandlerTag) (reactor : EpollReactor RegistrationId) : State :=
  { s.settle tag (s.reactor.operations tag).releaseHandlerMemory
      (s.reactor.operations tag).closeIoSource with reactor }

/-- The operation of a tag, up to the call of its handler. Nothing is called for an entry that is
not valid, and without events to report the operation ends. -/
def beginOperation (s : State) (tag : HandlerTag) : State :=
  let s := { s with queued := s.queued.erase tag }
  match s.reactor.beginOperation tag with
  | (reactor, some (handler, _)) =>
    { s with reactor, executing := (tag, handler) :: s.executing }
  | (reactor, none) =>
    if (s.reactor.operations tag).valid then s.cleanup tag reactor else { s with reactor }

/-- The operation of a tag, after its handler has returned. -/
def finishOperation (s : State) (tag : HandlerTag) (handler : Option RegistrationId) : State :=
  { s with executing := s.executing.erase (tag, handler) }.cleanup tag
    (s.reactor.finishOperation tag)

/-- The step labelled by an action, if it is enabled. -/
def step (s : State) : Action → Option State
  | .openFd fd =>
    some { s with reactor := { s.reactor with kernel := s.reactor.kernel.openFd fd } }
  | .closeFd fd =>
    some { s with reactor := { s.reactor with kernel := s.reactor.kernel.closeFd fd } }
  | .register fd events =>
    if s.registering.isNone then
      some { s with
        registering := some {
          id := s.nextId
          ioSource := fd
          events
          stage := .visit (List.range (min (s.reactor.usedOperationsEnd + 1) s.reactor.size))
            none none }
        nextId := s.nextId + 1 }
    else none
  | .registerStep resources => s.registering.map fun call => s.registerStep call resources
  | .deregister id closeOnDeregister =>
    match (s.registrations id).tag with
    | some tag =>
      if (s.registrations id).deregistered then none
      else some (s.deregister id tag closeOnDeregister)
    | none => none
  | .start tag opType resources =>
    if (s.reactor.operations tag).valid then
      some (s.setInterest (s.reactor.onStartOfOperation tag opType resources) (s.registrant tag))
    else none
  | .ignore tag ev => some { s with reactor := s.reactor.onEventIgnored tag ev }
  | .consume tag ev =>
    some { s with reactor := s.reactor.setEntry tag { s.reactor.operations tag with
      capturedEvents := (s.reactor.operations tag).capturedEvents.consume ev } }
  | .wait reports =>
    if s.batch = [] then some { s with batch := reports.filterMap fun r => s.report r.1 r.2 }
    else none
  | .handleEvent =>
    match s.batch with
    | [] => none
    | report :: batch =>
      let handled := s.reactor.handleSingleEvent report.event []
      some { s with
        reactor := handled.1
        batch
        queued := s.queued ++ if handled.2 = [] then [] else [report.event.tag] }
  | .abandon => some { s with batch := [] }
  | .begin tag => if tag ∈ s.queued then some (s.beginOperation tag) else none
  | .finish tag handler =>
    if (tag, handler) ∈ s.executing then some (s.finishOperation tag handler) else none

end State

/-- The machine: an empty reactor of any size. -/
def machine : ToMathlib.Machine State Action where
  init s := ∃ size, s = { reactor := { size } }
  step := State.step

/-! ## The history -/

namespace State

variable {s : State} {tag : HandlerTag} {id : RegistrationId}

/-- A deregistration is that of a registration that has its tag and was not deregistered before. -/
theorem step_deregister {s' : State} {closeOnDeregister : Bool}
    (hs' : s.step (.deregister id closeOnDeregister) = some s') :
    ∃ tag, (s.registrations id).tag = some tag ∧ (s.registrations id).deregistered = false ∧
      s' = s.deregister id tag closeOnDeregister := by
  simp only [step] at hs'
  split at hs'
  · rename_i tag htag
    split at hs'
    · cases hs'
    · rename_i hderegistered
      obtain rfl := Option.some.inj hs'
      exact ⟨tag, htag, by simpa using hderegistered, rfl⟩
  · cases hs'

/-- Nothing is recorded if nothing is released or closed. -/
theorem settle_false (s : State) (tag : HandlerTag) : s.settle tag false false = s := by
  unfold settle
  split
  · rfl
  · simp [setRegistration]

/-- Recording changes the history only. -/
theorem settle_eq (s : State) (tag : HandlerTag) (release close : Bool) :
    s.settle tag release close =
      { s with registrations := (s.settle tag release close).registrations } := by
  unfold settle
  split <;> rfl

/-- The end of an operation, with other queues: besides the reactor the history is changed. -/
theorem cleanup_eq (s : State) (queued : List HandlerTag)
    (executing : List (HandlerTag × Option RegistrationId)) (tag : HandlerTag)
    (reactor : EpollReactor RegistrationId) :
    { s with queued, executing }.cleanup tag reactor =
      { s with
        queued
        executing
        reactor
        registrations := (s.settle tag (s.reactor.operations tag).releaseHandlerMemory
          (s.reactor.operations tag).closeIoSource).registrations } := by
  unfold cleanup settle
  dsimp only
  split <;> rfl

/-- What is recorded when the handler of an entry is released. -/
theorem settle_registrations (hhandler : (s.reactor.operations tag).handler = some id)
    (release close : Bool) :
    (s.settle tag release close).registrations = Function.update s.registrations id
      { s.registrations id with
        released := (s.registrations id).released + release.toNat
        closed := (s.registrations id).closed ++
          if close then [(s.reactor.operations tag).ioSource] else [] } := by
  simp [settle, hhandler, setRegistration]

/-- What the history of a registration says is what has been done: from one state to the next the
handler in its entry is released as often, and the kernel, which was `kernel`, has been asked to
close the descriptors that were added. -/
def Records (s s' : State) (tag : HandlerTag) (id : RegistrationId) (kernel : Kernel) : Prop :=
  (s'.registrations id).released =
      (s.registrations id).released + (s'.reactor.operations tag).handler.isNone.toNat ∧
    ∃ fds, (s'.registrations id).closed = (s.registrations id).closed ++ fds ∧
      s'.reactor.kernel = fds.foldl Kernel.closeFd kernel

/-- The end of an operation does what it records. -/
theorem finishOperation_records (hhandler : (s.reactor.operations tag).handler = some id)
    (handler : Option RegistrationId) :
    s.Records (s.finishOperation tag handler) tag id s.reactor.kernel := by
  have hhistory := settle_registrations hhandler (s.reactor.operations tag).releaseHandlerMemory
    (s.reactor.operations tag).closeIoSource
  rw [finishOperation, cleanup_eq s s.queued, hhistory]
  refine ⟨?_, if (s.reactor.operations tag).closeIoSource then
    [(s.reactor.operations tag).ioSource] else [], by simp, ?_⟩
  · cases hrelease : (s.reactor.operations tag).releaseHandlerMemory <;>
      simp [EpollReactor.finishOperation, EpollReactor.cleanupOperation, hrelease, hhandler]
  · cases hclose : (s.reactor.operations tag).closeIoSource <;>
      simp [EpollReactor.finishOperation, EpollReactor.cleanupOperation, EpollReactor.setEntry,
        hclose]

/-- A deregistration does what it records, after the descriptor has left the interest list. -/
theorem deregister_records {closeOnDeregister : Bool} {kernel : Kernel}
    (hvalid : (s.reactor.operations tag).valid = true)
    (hhandler : (s.reactor.operations tag).handler = some id)
    (hkernel : s.reactor.kernel.epollRemove (s.reactor.operations tag).ioSource = .ok kernel) :
    s.Records (s.deregister id tag closeOnDeregister) tag id kernel := by
  cases hprogress : (s.reactor.operations tag).executionInProgress with
  | true =>
    -- both are left to the operation that is executing
    refine ⟨?_, [], ?_, ?_⟩ <;>
      simp [deregister, EpollReactor.derigsterImpl, hvalid, hkernel, hprogress, hhandler,
        setRegistration, EpollReactor.setEntry]
  | false =>
    refine ⟨?_, if closeOnDeregister then [(s.reactor.operations tag).ioSource] else [], ?_, ?_⟩
    · simp [deregister, EpollReactor.derigsterImpl, hvalid, hkernel, hprogress, hhandler,
        setRegistration, EpollReactor.setEntry, settle]
    · simp [deregister, EpollReactor.derigsterImpl, hvalid, hkernel, hprogress, hhandler,
        setRegistration, EpollReactor.setEntry, settle]
    · cases closeOnDeregister <;>
        simp [deregister, EpollReactor.derigsterImpl, hvalid, hkernel, hprogress,
          EpollReactor.setEntry]

/-- The history keeps what does not concern the release: the tags and the deregistrations. -/
theorem settle_frame (s : State) (tag : HandlerTag) (release close : Bool) (id : RegistrationId) :
    ((s.settle tag release close).registrations id).tag = (s.registrations id).tag ∧
      ((s.settle tag release close).registrations id).deregistered =
        (s.registrations id).deregistered := by
  cases hhandler : (s.reactor.operations tag).handler with
  | none => simp [settle, hhandler]
  | some holder =>
    rw [settle_registrations hhandler]
    by_cases hid : id = holder
    · subst hid; simp
    · rw [Function.update_of_ne hid]
      exact ⟨rfl, rfl⟩

end State

/-! ## A call that is not interrupted -/

/-- The rest of a call of `RegisterImpl()`, from the state `s` to the state `t`, if no other thread
takes a step. -/
inductive Completes (resources : Bool) (t : State) : State → Prop
  | done : t.registering = none → Completes resources t t
  | step {s : State} {call : RegisterCall} : s.registering = some call →
    Completes resources t (s.registerStep call resources) → Completes resources t s

variable {s t : State} {id : RegistrationId} {ioSource : NativeHandle} {events : Events}
  {resources : Bool}

/-- The loop of `FindFreeOperationSlot()` is its first iteration and the loop over the rest. -/
theorem findFreeOperationSlotLoop_cons
    (operations : HandlerTag → OperationEntry RegistrationId) (it : ℕ) (its : List ℕ)
    (position lastUsedEntry : Option ℕ) :
    EpollReactor.findFreeOperationSlotLoop operations ioSource (it :: its) position lastUsedEntry =
      (visitEntry ioSource it (operations it) position lastUsedEntry).bind fun found =>
        EpollReactor.findFreeOperationSlotLoop operations ioSource its found.1 found.2 := by
  simp only [EpollReactor.findFreeOperationSlotLoop, visitEntry]
  split_ifs <;> rfl

/-- A search that fails ends the call. -/
theorem completes_visit_error {its : List ℕ} {position lastUsedEntry : Option ℕ} {ec : ErrorCode}
    (hcall : s.registering = some ⟨id, ioSource, events, .visit its position lastUsedEntry⟩)
    (hloop : EpollReactor.findFreeOperationSlotLoop s.reactor.operations ioSource its position
      lastUsedEntry = .error ec) :
    Completes resources { s with registering := none } s := by
  induction its generalizing s position lastUsedEntry with
  | nil => simp [EpollReactor.findFreeOperationSlotLoop] at hloop
  | cons it its ih =>
    rw [findFreeOperationSlotLoop_cons] at hloop
    apply Completes.step hcall
    cases hvisit : visitEntry ioSource it (s.reactor.operations it) position lastUsedEntry with
    | error ec' =>
      simp only [State.registerStep, hvisit]
      exact .done rfl
    | ok found =>
      rw [hvisit] at hloop
      simp only [State.registerStep, hvisit]
      exact ih (s := { s with
        registering := some ⟨id, ioSource, events, .visit its found.1 found.2⟩ }) rfl hloop

/-- A search that succeeds comes to the end of the entries. -/
theorem completes_visit_ok {its : List ℕ} {position lastUsedEntry : Option ℕ}
    {found : Option ℕ × Option ℕ}
    (hcall : s.registering = some ⟨id, ioSource, events, .visit its position lastUsedEntry⟩)
    (hloop : EpollReactor.findFreeOperationSlotLoop s.reactor.operations ioSource its position
      lastUsedEntry = .ok found)
    (hrest : Completes resources t { s with
      registering := some ⟨id, ioSource, events, .visit [] found.1 found.2⟩ }) :
    Completes resources t s := by
  induction its generalizing s position lastUsedEntry with
  | nil =>
    obtain rfl : (position, lastUsedEntry) = found := Except.ok.inj hloop
    rwa [← hcall] at hrest
  | cons it its ih =>
    rw [findFreeOperationSlotLoop_cons] at hloop
    apply Completes.step hcall
    cases hvisit : visitEntry ioSource it (s.reactor.operations it) position lastUsedEntry with
    | error ec =>
      rw [hvisit] at hloop
      cases hloop
    | ok visited =>
      rw [hvisit] at hloop
      simp only [State.registerStep, hvisit]
      exact ih rfl hloop hrest

/-- The writes of a call make up the entry that `RegisterImpl()` writes. -/
theorem completes_write (resources : Bool) {tag : HandlerTag}
    (hcall : s.registering = some ⟨id, ioSource, events, .write tag .ioSource⟩) :
    ∃ t, Completes resources t s ∧
      t.reactor = s.reactor.setEntry tag { s.reactor.operations tag with
        ioSource
        handler := some id
        valid := true
        monitoredEvents :=
          if events.hasIoEvent then events.add (EPOLLIN ||| EPOLLPRI) else events
        capturedEvents := {}
        handlerPosted := false } ∧
      (t.registrations id).tag = some tag := by
  refine ⟨_, .step hcall (.step rfl (.step rfl (.step rfl (.step rfl (.step rfl (.done rfl)))))),
    ?_, ?_⟩
  · simp [State.registerStep, State.setRegistration, EntryField.next, RegisterCall.write,
      RegisterCall.monitoredEvents, EpollReactor.setEntry]
  · simp [State.registerStep, State.setRegistration, EntryField.next]

/-- Once the slot is found the call ends with the epoll call or with the writes. -/
theorem completes_add (resources : Bool) {tag : HandlerTag}
    (hcall : s.registering = some ⟨id, ioSource, events, .add tag⟩)
    (hfresh : (s.registrations id).tag = none) :
    ∃ t, Completes resources t s ∧
      match (if events.hasIoEvent then
          s.reactor.kernel.epollAdd ioSource
            ⟨(if events.hasIoEvent then events.add (EPOLLIN ||| EPOLLPRI) else events).eventMask,
              tag⟩ resources
        else .ok s.reactor.kernel) with
      | .error _ => t.reactor = s.reactor ∧ (t.registrations id).tag = none
      | .ok kernel =>
        t.reactor = { s.reactor with kernel }.setEntry tag { s.reactor.operations tag with
          ioSource
          handler := some id
          valid := true
          monitoredEvents :=
            if events.hasIoEvent then events.add (EPOLLIN ||| EPOLLPRI) else events
          capturedEvents := {}
          handlerPosted := false } ∧
        (t.registrations id).tag = some tag := by
  by_cases hio : events.hasIoEvent = true
  · simp only [hio, if_true]
    cases hadd : s.reactor.kernel.epollAdd ioSource
        ⟨(events.add (EPOLLIN ||| EPOLLPRI)).eventMask, tag⟩ resources with
    | error ec =>
      refine ⟨{ s with registering := none }, .step hcall ?_, ?_⟩
      · simp only [State.registerStep, RegisterCall.monitoredEvents, hio, if_true, hadd]
        exact .done rfl
      · exact ⟨rfl, hfresh⟩
    | ok kernel =>
      obtain ⟨t, ht, hreactor, htag⟩ := completes_write resources
        (s := { s with
          registering := some ⟨id, ioSource, events, .write tag .ioSource⟩ }.setInterest
          { s.reactor with kernel } id) rfl
      refine ⟨t, .step hcall ?_, ?_⟩
      · simp only [State.registerStep, RegisterCall.monitoredEvents, hio, if_true, hadd]
        exact ht
      · simp only [hio, if_true] at hreactor
        exact ⟨hreactor, htag⟩
  · -- without an I/O event epoll is not asked
    obtain ⟨t, ht, hreactor, htag⟩ := completes_write resources
      (s := { s with registering := some ⟨id, ioSource, events, .write tag .ioSource⟩ }) rfl
    refine ⟨t, .step hcall ?_, ?_⟩
    · simp only [State.registerStep, hio, Bool.false_eq_true, if_false]
      exact ht
    · simp only [hio, Bool.false_eq_true, if_false] at hreactor ⊢
      exact ⟨hreactor, htag⟩

/-- A call that no other thread interrupts does what `RegisterImpl()` does, and its registration
gets the tag that `RegisterImpl()` returns. -/
theorem completes_registerImpl {s₁ : State} (hfresh : s.registrations s.nextId = {})
    (hs₁ : s.step (.register ioSource events) = some s₁) (resources : Bool) :
    ∃ t, Completes resources t s₁ ∧
      t.reactor = (s.reactor.registerImpl .ioEvent ioSource events s.nextId resources).1 ∧
      (t.registrations s.nextId).tag =
        (s.reactor.registerImpl .ioEvent ioSource events s.nextId resources).2.toOption := by
  obtain ⟨-, hs₁⟩ := Option.ite_none_right_eq_some.mp hs₁
  obtain rfl := Option.some.inj hs₁
  cases hloop : EpollReactor.findFreeOperationSlotLoop s.reactor.operations ioSource
      (List.range (min (s.reactor.usedOperationsEnd + 1) s.reactor.size)) none none with
  | error ec =>
    refine ⟨_, completes_visit_error rfl hloop, ?_, ?_⟩
    · simp [EpollReactor.registerImpl, EpollReactor.findFreeOperationSlot, hloop]
    · simp [EpollReactor.registerImpl, EpollReactor.findFreeOperationSlot, hloop, hfresh,
        Except.toOption]
  | ok found =>
    obtain ⟨position, lastUsedEntry⟩ := found
    cases position with
    | none =>
      -- the table is full
      refine ⟨_, completes_visit_ok rfl hloop (.step rfl (.done rfl)), ?_, ?_⟩
      · simp [State.registerStep, EpollReactor.registerImpl, EpollReactor.findFreeOperationSlot,
          hloop]
      · simp [State.registerStep, EpollReactor.registerImpl, EpollReactor.findFreeOperationSlot,
          hloop, hfresh, Except.toOption]
    | some tag =>
      obtain ⟨⟨used, hused⟩, -⟩ := EpollReactor.findFreeOperationSlot_spec
        (show s.reactor.findFreeOperationSlot ioSource = (_, _) from rfl)
      simp only [hloop] at hused
      obtain ⟨t, ht, hres⟩ := completes_add resources
        (s := { s with
          reactor := { s.reactor with usedOperationsEnd := used }
          nextId := s.nextId + 1
          registering := some ⟨s.nextId, ioSource, events, .add tag⟩ }) rfl
        (by rw [hfresh])
      refine ⟨t, completes_visit_ok rfl hloop (.step rfl ?_), ?_⟩
      · simp only [State.registerStep, hused]
        exact ht
      · simp only [EpollReactor.registerImpl, EpollReactor.findFreeOperationSlot, hloop, hused,
          true_and]
        split at hres
        · rename_i hadd
          dsimp only at hadd
          rw [hadd]
          exact hres
        · rename_i hadd
          dsimp only at hadd
          rw [hadd]
          simpa [Except.toOption] using hres

end Asrt.Reactor.LifeCycle
