import Asrt.Reactor.Calls
import Asrt.Reactor.Registration
import Asrt.Socket.AsyncOperation
import Asrt.Socket.BasicSocket

/-!
# Receiving on a datagram socket

`ReceiveAsync()` of `BasicDgramSocket` (`socket/basic_datagram_socket.hpp`), with the read events of
the reactor (`reactor/epoll_reactor.hpp`) that complete it. The socket has no lock of its own:
`ReceiveAsync()` may come at any time, also from the completion handler, which is called with the
mutex of the reactor's entry held.

That a receive is pending is represented three times: by `recv_ongoing_`, by the stored completion
handler and by the monitored read event. `ReceiveAsync()` resets the flag before it returns, the
handler stays stored after it was called, and a new registration already monitors read events.

The steps are cut where the completion handler is called. A call of an empty handler throws in a
function that must not, and ends the program.

## Main definitions

* `State`: the socket and the reactor, with the accepted receives and the invoked handlers.
* `Completes`: what a step has to keep of the receives.

## Main results

* `receive_completion_iff`: when all steps of a run keep it.
-/

namespace Asrt.Socket.Datagram

open Reactor
open Async (BufferView)

/-- The members of `ErrorCode` that `ReceiveAsync()` returns. -/
inductive ReceiveErrorCode
  | reactorNotAvailable
  | socketInBlockingMode
  | socketNotOpen
  | receiveOperationOngoing
deriving DecidableEq, Repr

/-- Where the executor is in the operation of the socket's entry. -/
inductive Phase
  /-- No operation is executing. -/
  | idle
  /-- In the completion handler, which `HandleReceive()` has called for these events. -/
  | handling (ev : Events)
  /-- After `HandleReceive()`, or past it if there was no read event. -/
  | returning (ev : Events)
  /-- The program has ended. -/
  | terminated
deriving DecidableEq, Repr

/-- `BasicDgramSocket` with its reactor. The send handler is never set and is left out. -/
structure State (H : Type) where
  reactor : EpollReactor Unit
  base : BasicSocket := {}
  /-- `reactor_.has_value()` -/
  hasReactor : Bool := true
  /-- `isNonBlocking_` -/
  isNonBlocking : Bool := false
  /-- `recv_ongoing_` -/
  recvOngoing : Bool := false
  /-- `recv_buffview_` -/
  recvBuffview : BufferView := {}
  /-- `recv_completion_handler_` -/
  recvCompletionHandler : Option H := none
  /-- The operations posted to the executor. -/
  queued : List Operation := []
  phase : Phase := .idle
  /-- Ghost: the handlers of the successful calls of `ReceiveAsync()`. -/
  accepted : List H := []
  /-- Ghost: the handlers that were invoked. -/
  invoked : List (Option H) := []
  /-- Ghost: the handler that was invoked last has started a receive. -/
  restarted : Bool := false

/-- The steps of the users of the socket, the reactor thread and the executor threads. -/
inductive Action (H : Type)
  /-- `Open()`; the kernel hands out descriptor `fd`, and `resources` is the outcome of the epoll
  call. -/
  | openSocket (fd : NativeHandle) (resources : Bool)
  /-- `ReceiveAsync()`, from the completion handler that is executing or from elsewhere. -/
  | receiveAsync (fromHandler : Bool) (bufferView : BufferView) (handler : H) (resources : Bool)
  /-- The reactor thread handles an event of the socket's descriptor. -/
  | event (events : BitVec 32)
  /-- An executor thread starts the posted operation, up to the call of the completion handler. -/
  | begin
  /-- The completion handler, if one was called, returns, and the operation ends. -/
  | finish (resources : Bool)
deriving DecidableEq, Repr

namespace State

variable {H : Type}

/-- The socket's entry in the reactor's table. -/
def entry (σ : State H) : OperationEntry Unit := σ.reactor.operations σ.base.reactorHandle

/-- A successful `ReceiveAsync()` has not been answered yet. -/
def pending (σ : State H) : Prop := σ.invoked.length < σ.accepted.length

instance (σ : State H) : Decidable σ.pending :=
  inferInstanceAs (Decidable (σ.invoked.length < σ.accepted.length))

/-- `DoOpenSocket()` and `AssignNativeHandle()` after `socket(2)` has returned `fd`. -/
def doOpenSocket (σ : State H) (fd : NativeHandle) (resources : Bool) : State H :=
  let base := { σ.base with socketHandle := fd }
  let reactor := { σ.reactor with kernel := σ.reactor.kernel.openFd fd }
  if σ.hasReactor && !base.isReactorHandleValid then
    match reactor.registerImpl .ioEvent fd kReadEdge () resources with
    | (reactor, .ok tag) =>
      { σ with
        reactor
        base := { base.setOpen with reactorHandle := tag, registered := true }
        isNonBlocking := true }
    | (reactor, .error _) =>
      { σ with reactor := { reactor with kernel := reactor.kernel.closeFd fd }, base }
  else { σ with reactor, base := base.setOpen }

/-- `ChangeReactorObservation()`. A failure is only logged. -/
def changeReactorObservation (σ : State H) (event : Events) (enable resources : Bool) : State H :=
  let changeHow := if enable then EventChangeType.kAddEvent else .kRemoveEvent
  { σ with reactor := (σ.reactor.doModifyEvent changeHow σ.base.reactorHandle event resources).1 }

/-- `CheckRecvPossible()` -/
def checkRecvPossible (σ : State H) : Except ReceiveErrorCode Unit :=
  if σ.base.isClosed then .error .socketNotOpen
  else if σ.recvOngoing then .error .receiveOperationOngoing
  else .ok ()

/-- `ReceiveAsync()`. The flag is set while the request is stored and reset again. -/
def receiveAsync (σ : State H) (bufferView : BufferView) (handler : H) (resources : Bool) :
    State H × Except ReceiveErrorCode Unit :=
  if !σ.hasReactor then (σ, .error .reactorNotAvailable)
  else if !σ.isNonBlocking then (σ, .error .socketInBlockingMode)
  else
    match σ.checkRecvPossible with
    | .error ec => (σ, .error ec)
    | .ok () =>
      let σ := { σ with
        recvOngoing := true
        recvBuffview := bufferView
        recvCompletionHandler := some handler }
      -- the flag says nothing about the pending receive from here on
      let σ := { σ with recvOngoing := false }
      (σ.changeReactorObservation .kRead true resources, .ok ())

/-- A call of `ReceiveAsync()` with its ghost effects. -/
def receive (σ : State H) (fromHandler : Bool) (bufferView : BufferView) (handler : H)
    (resources : Bool) : State H :=
  match σ.receiveAsync bufferView handler resources with
  | (σ, .error _) => σ
  | (σ, .ok ()) =>
    { σ with
      accepted := σ.accepted ++ [handler]
      restarted := σ.restarted || fromHandler }

/-- `HandleReceive()` up to the call of the completion handler, which is called where it is stored.
-/
def handleReceive (σ : State H) (ev : Events) : State H :=
  { σ with
    invoked := σ.invoked ++ [σ.recvCompletionHandler]
    restarted := false
    phase := if σ.recvCompletionHandler.isSome then .handling ev else .terminated }

/-- `OnReactorEvent()` and `OnReactorEventImpl()`, up to the call of the completion handler. -/
def onReactorEvent (σ : State H) (ev : Events) : State H :=
  if σ.base.isClosed then { σ with phase := .returning {} }
  else if ev.hasReadEvent then σ.handleReceive ev
  else { σ with phase := .returning ev }

/-- `HandleReceive()` after the completion handler has returned. -/
def handlerReturned (σ : State H) (resources : Bool) : State H :=
  if !σ.recvOngoing then σ.changeReactorObservation .kRead false resources else σ

/-- The rest of `OnReactorEventImpl()` and of the operation. `HandleSend()` would call the empty
send handler. -/
def endOperation (σ : State H) (ev : Events) : State H :=
  if ev.hasWriteEvent then { σ with phase := .terminated }
  else { σ with
    reactor := σ.reactor.finishOperation σ.base.reactorHandle
    phase := .idle }

/-- The step labelled by an action, if it is enabled. `HandleSingleEvent()` and the operation wait
for the mutex of the entry, which is held while the operation executes. -/
def step (σ : State H) (a : Action H) : Option (State H) :=
  if σ.phase = .terminated then none
  else
    match a with
    | .openSocket fd resources =>
      if !σ.base.isClosed then some σ
      else if σ.reactor.kernel.isOpen fd then none
      else some (σ.doOpenSocket fd resources)
    | .receiveAsync fromHandler bufferView handler resources =>
      match fromHandler, σ.phase with
      | false, _ | true, .handling _ => some (σ.receive fromHandler bufferView handler resources)
      | true, _ => none
    | .event events =>
      if σ.phase = .idle ∧ σ.base.isReactorHandleValid then
        let (reactor, queued) :=
          σ.reactor.handleSingleEvent ⟨events, σ.base.reactorHandle⟩ σ.queued
        some { σ with reactor, queued }
      else none
    | .begin =>
      if σ.phase = .idle ∧ .ioEvent σ.base.reactorHandle ∈ σ.queued then
        let queued := σ.queued.erase (.ioEvent σ.base.reactorHandle)
        match σ.reactor.beginOperation σ.base.reactorHandle with
        | (reactor, none) => some { σ with reactor, queued }
        | (reactor, some (_, ev)) => some ({ σ with reactor, queued }.onReactorEvent ev)
      else none
    | .finish resources =>
      match σ.phase with
      | .handling ev => some ((σ.handlerReturned resources).endOperation ev)
      | .returning ev => some (σ.endOperation ev)
      | .idle | .terminated => none

/-- The operation of the socket's entry would call `HandleReceive()`. -/
def reportsRead (σ : State H) : Prop :=
  σ.base.isClosed = false ∧
    ∃ handler ev, (σ.reactor.beginOperation σ.base.reactorHandle).2 = some (handler, ev) ∧
      ev.hasReadEvent = true

end State

variable {H : Type}

/-- The socket as a machine. A socket is constructed with a reactor or without one, and nothing is
assumed of what else is in the reactor's table. -/
def machine (H : Type) : ToMathlib.Machine (State H) (Action H) where
  init σ := ∃ reactor hasReactor, σ = { reactor, hasReactor }
  step := State.step

/-- What a step from `σ` to `τ` has to keep. The handlers that are invoked are those of the
successful receives, each once and in their order. -/
structure Completes (σ : State H) (a : Action H) (τ : State H) : Prop where
  once : τ.invoked <+: τ.accepted.map some
  /-- No handler is invoked while no receive is pending. -/
  pending : τ.invoked ≠ σ.invoked → σ.pending
  /-- A receive is rejected while one is pending, and does not replace it. -/
  rejects : ∀ fromHandler bufferView handler resources,
    a = .receiveAsync fromHandler bufferView handler resources → σ.pending →
      (∃ ec, (σ.receiveAsync bufferView handler resources).2 = .error ec) ∧
        τ.recvBuffview = σ.recvBuffview ∧ τ.recvCompletionHandler = σ.recvCompletionHandler
  /-- A receive that the completion handler has started is monitored when the event is over. -/
  monitors : ∀ resources ev, a = .finish resources → σ.phase = .handling ev →
    σ.restarted = true → τ.entry.monitoredEvents.hasReadEvent = true

/-- The use that the socket supports: no read event comes before the first receive, no receive is
started while one is pending, and no completion handler has started one. -/
def Supported (σ : State H) : Action H → Prop
  | .begin => σ.reportsRead → σ.accepted ≠ []
  | .receiveAsync _ _ _ _ => ¬ σ.pending
  | .finish _ => ∀ ev, σ.phase = .handling ev → σ.restarted = false
  | .openSocket _ _ | .event _ => True

/-! ## What the calls do -/

variable {σ τ : State H}

/-- A change of the read event needs no call of epoll, and succeeds on a valid entry. -/
theorem entry_changeReactorObservation (hvalid : σ.entry.valid = true) (enable resources : Bool) :
    (σ.changeReactorObservation .kRead enable resources).entry = { σ.entry with
      monitoredEvents := if enable then σ.entry.monitoredEvents.union .kRead
        else σ.entry.monitoredEvents.consume .kRead } := by
  have hvalid : (σ.reactor.operations σ.base.reactorHandle).valid = true := hvalid
  have hedge : Events.kRead.hasEvent .kEdge = false := by decide
  have hwrite : Events.kRead.hasEvent .kWrite = false := by decide
  cases enable with
  | true =>
    simp [State.entry, State.changeReactorObservation, EpollReactor.doModifyEvent, hvalid,
      EpollReactor.updateEpoll, EpollReactor.changedEvent, hedge, hwrite]
  | false =>
    simp [State.entry, State.changeReactorObservation, EpollReactor.doModifyEvent, hvalid,
      EpollReactor.updateEpoll, EpollReactor.changedEvent, hedge, hwrite]

/-- `ReceiveAsync()` is refused and changes nothing, or the socket has a reactor and is open, and
the request is stored. -/
theorem receiveAsync_cases (σ : State H) (bufferView : BufferView) (handler : H)
    (resources : Bool) :
    (∃ ec, σ.receiveAsync bufferView handler resources = (σ, .error ec)) ∨
    (σ.hasReactor = true ∧ σ.base.isClosed = false) ∧
      σ.receiveAsync bufferView handler resources =
        ({ σ with
            recvOngoing := false
            recvBuffview := bufferView
            recvCompletionHandler := some handler }.changeReactorObservation .kRead true resources,
          .ok ()) := by
  unfold State.receiveAsync State.checkRecvPossible
  cases hreactor : σ.hasReactor with
  | false => exact .inl ⟨_, rfl⟩
  | true =>
    cases hblocking : σ.isNonBlocking with
    | false => exact .inl ⟨_, rfl⟩
    | true =>
      cases hclosed : σ.base.isClosed with
      | true => exact .inl ⟨_, rfl⟩
      | false =>
        cases hongoing : σ.recvOngoing with
        | true => exact .inl ⟨_, rfl⟩
        | false => exact .inr ⟨⟨rfl, rfl⟩, by simp [State.changeReactorObservation]⟩

/-- The operation of a valid entry that reports events leaves the entry valid and monitors none of
them any more. -/
theorem entry_of_beginOperation {reactor : EpollReactor Unit} {handler : Option Unit} {ev : Events}
    (h : σ.reactor.beginOperation σ.base.reactorHandle = (reactor, some (handler, ev))) :
    σ.entry.valid = true ∧ ev = σ.entry.capturedEvents.intersection σ.entry.monitoredEvents ∧
      (reactor.operations σ.base.reactorHandle).valid = true ∧
      (reactor.operations σ.base.reactorHandle).monitoredEvents =
        σ.entry.monitoredEvents.consume ev := by
  rcases EpollReactor.beginOperation_cases σ.reactor σ.base.reactorHandle with
    ⟨-, heq⟩ | ⟨-, heq⟩ | ⟨hvalid, heq⟩
  · cases heq.symm.trans h
  · cases heq.symm.trans h
  · obtain ⟨rfl, hreport⟩ := Prod.mk.inj (heq.symm.trans h)
    obtain ⟨-, rfl⟩ := Prod.mk.inj (Option.some.inj hreport)
    refine ⟨hvalid, rfl, ?_, ?_⟩
    · simp [hvalid]
    · simp [State.entry]

/-- An operation that reports nothing leaves the registration of the entry alone. -/
theorem entry_of_beginOperation_none {reactor : EpollReactor Unit}
    (h : σ.reactor.beginOperation σ.base.reactorHandle = (reactor, none)) :
    (reactor.operations σ.base.reactorHandle).valid = σ.entry.valid ∧
      (reactor.operations σ.base.reactorHandle).monitoredEvents = σ.entry.monitoredEvents := by
  rcases EpollReactor.beginOperation_cases σ.reactor σ.base.reactorHandle with
    ⟨-, heq⟩ | ⟨-, heq⟩ | ⟨-, heq⟩
  · obtain ⟨rfl, -⟩ := Prod.mk.inj (heq.symm.trans h)
    exact ⟨rfl, rfl⟩
  · -- the cleanup of an operation that reports nothing
    obtain ⟨rfl, -⟩ := Prod.mk.inj (heq.symm.trans h)
    rw [EpollReactor.cleanupOperation_entry]
    exact ⟨rfl, rfl⟩
  · cases heq.symm.trans h

/-! ## What supported use keeps -/

/-- The receives are answered in their order. Between two of them, read events are not monitored;
only before the first one they are, from the registration on. -/
structure Consistent (σ : State H) : Prop where
  recvOngoing : σ.recvOngoing = false
  unregistered : σ.base.isClosed = true → σ.base.reactorHandle = kInvalidHandlerTag
  registered : σ.hasReactor = true → σ.base.isClosed = false →
    σ.entry.valid = true ∧ σ.isNonBlocking = true
  accepted : σ.accepted ≠ [] → σ.hasReactor = true ∧ σ.base.isClosed = false
  restarted : σ.restarted = true → σ.accepted ≠ []
  answers : (σ.accepted.map some = σ.invoked ∧
      (σ.accepted ≠ [] → σ.entry.monitoredEvents.hasReadEvent = false)) ∨
    σ.accepted.map some = σ.invoked ++ [σ.recvCompletionHandler]

namespace Consistent

/-- A socket that was just constructed has no receives. -/
theorem init (reactor : EpollReactor Unit) (hasReactor : Bool) :
    Consistent ({ reactor, hasReactor } : State H) where
  recvOngoing := rfl
  unregistered _ := rfl
  registered _ hopen := by cases hopen
  accepted hne := absurd rfl hne
  restarted h := by cases h
  answers := .inl ⟨rfl, fun hne => absurd rfl hne⟩

/-- The invoked handlers are those of the first receives. -/
theorem once (h : Consistent σ) : σ.invoked <+: σ.accepted.map some := by
  rcases h.answers with ⟨hall, -⟩ | hlast
  · rw [hall]
  · rw [hlast]
    exact List.prefix_append _ _

/-- A pending receive is the last one, and its handler is stored. -/
theorem pending_iff (h : Consistent σ) :
    σ.pending ↔ σ.accepted.map some = σ.invoked ++ [σ.recvCompletionHandler] := by
  constructor
  · intro hpending
    rcases h.answers with ⟨hall, -⟩ | hlast
    · have hlength := congrArg List.length hall
      rw [List.length_map] at hlength
      unfold State.pending at hpending
      omega
    · exact hlast
  · intro hlast
    have hlength := congrArg List.length hlast
    rw [List.length_map, List.length_append, List.length_singleton] at hlength
    unfold State.pending
    omega

/-- While a receive is pending `ReceiveAsync()` succeeds all the same. -/
theorem not_error_of_pending (h : Consistent σ) (hpending : σ.pending) (bufferView : BufferView)
    (handler : H) (resources : Bool) (ec : ReceiveErrorCode) :
    (σ.receiveAsync bufferView handler resources).2 ≠ .error ec := by
  have hne : σ.accepted ≠ [] := List.ne_nil_of_length_pos (Nat.zero_lt_of_lt hpending)
  obtain ⟨hreactor, hopen⟩ := h.accepted hne
  have hblocking := (h.registered hreactor hopen).2
  simp [State.receiveAsync, State.checkRecvPossible, hreactor, hblocking, hopen, h.recvOngoing]

/-- The reactor may do with the entry what it likes as long as it stays registered and no read event
is monitored anew. -/
theorem with_reactor (h : Consistent σ) {reactor : EpollReactor Unit} (queued : List Operation)
    (phase : Phase)
    (hvalid : σ.entry.valid = true → (reactor.operations σ.base.reactorHandle).valid = true)
    (hread : σ.entry.monitoredEvents.hasReadEvent = false →
      (reactor.operations σ.base.reactorHandle).monitoredEvents.hasReadEvent = false) :
    Consistent { σ with reactor, queued, phase } where
  recvOngoing := h.recvOngoing
  unregistered := h.unregistered
  registered hreactor hopen := by
    obtain ⟨hentry, hblocking⟩ := h.registered hreactor hopen
    exact ⟨hvalid hentry, hblocking⟩
  accepted := h.accepted
  restarted := h.restarted
  answers := by
    rcases h.answers with ⟨hall, hmonitored⟩ | hlast
    · exact .inl ⟨hall, fun hne => hread (hmonitored hne)⟩
    · exact .inr hlast

/-- A closed socket has no receives. -/
theorem accepted_of_isClosed (h : Consistent σ) (hclosed : σ.base.isClosed = true) :
    σ.accepted = [] := by
  by_contra hne
  have hopen := (h.accepted hne).2
  rw [hclosed] at hopen
  cases hopen

/-- A state with no receives is consistent if its registration is. -/
theorem of_accepted_nil (h : Consistent σ) (hnil : σ.accepted = [])
    (hrecvOngoing : τ.recvOngoing = σ.recvOngoing) (haccepted : τ.accepted = σ.accepted)
    (hinvoked : τ.invoked = σ.invoked) (hrestarted : τ.restarted = σ.restarted)
    (hunregistered : τ.base.isClosed = true → τ.base.reactorHandle = kInvalidHandlerTag)
    (hregistered : τ.hasReactor = true → τ.base.isClosed = false →
      τ.entry.valid = true ∧ τ.isNonBlocking = true) : Consistent τ where
  recvOngoing := by rw [hrecvOngoing, h.recvOngoing]
  unregistered := hunregistered
  registered := hregistered
  accepted hne := absurd (haccepted.trans hnil) hne
  restarted hτ := absurd hnil (h.restarted (hrestarted ▸ hτ))
  answers := by
    refine .inl ⟨?_, fun hne => absurd (haccepted.trans hnil) hne⟩
    have hnone := h.once
    rw [hnil] at hnone
    rw [haccepted, hinvoked, hnil, List.prefix_nil.mp hnone]
    rfl

/-- `Open()` of a closed socket registers it if it has a reactor, or leaves it closed. -/
theorem doOpenSocket (h : Consistent σ) (hclosed : σ.base.isClosed = true) (fd : NativeHandle)
    (resources : Bool) :
    Consistent (σ.doOpenSocket fd resources) ∧
      (σ.doOpenSocket fd resources).invoked = σ.invoked := by
  have hnil := h.accepted_of_isClosed hclosed
  have hinvalid : { σ.base with socketHandle := fd }.isReactorHandleValid = false := by
    simp [BasicSocket.isReactorHandleValid, h.unregistered hclosed]
  have hopened := BasicSocket.isClosed_setOpen { σ.base with socketHandle := fd }
  simp only [State.doOpenSocket, hinvalid, Bool.not_false, Bool.and_true]
  split
  · split
    · rename_i reactor tag hregister
      -- the new entry is valid
      obtain ⟨-, -, -, used, rfl⟩ := EpollReactor.registerImpl_ok (by decide) hregister
      refine ⟨h.of_accepted_nil hnil rfl rfl rfl rfl ?_ fun _ _ => ⟨?_, rfl⟩, rfl⟩
      · intro hstill
        have hcontra : true = false := hstill.symm.trans hopened
        cases hcontra
      · simp [State.entry, EpollReactor.registeredEntry]
    · -- the registration failed, and the socket stays closed
      refine ⟨h.of_accepted_nil hnil rfl rfl rfl rfl (fun _ => h.unregistered hclosed) ?_, rfl⟩
      intro _ hopen
      have hcontra : false = true := hopen.symm.trans hclosed
      cases hcontra
  · -- without a reactor there is nothing to register with
    rename_i hreactor
    refine ⟨h.of_accepted_nil hnil rfl rfl rfl rfl ?_ ?_, rfl⟩
    · intro hstill
      have hcontra : true = false := hstill.symm.trans hopened
      cases hcontra
    · intro hwith
      exact absurd hwith hreactor

/-- A receive that is started while none is pending becomes the pending one. -/
theorem receive (h : Consistent σ) (hpending : ¬ σ.pending) (fromHandler : Bool)
    (bufferView : BufferView) (handler : H) (resources : Bool) :
    Consistent (σ.receive fromHandler bufferView handler resources) := by
  -- all receives so far are answered
  have hall : σ.accepted.map some = σ.invoked := by
    rcases h.answers with ⟨hall, -⟩ | hlast
    · exact hall
    · exact absurd (h.pending_iff.mpr hlast) hpending
  rcases receiveAsync_cases σ bufferView handler resources with ⟨ec, hreceive⟩ |
    ⟨hregistered, hreceive⟩
  · simpa only [State.receive, hreceive] using h
  · obtain ⟨hvalid, hblocking⟩ := h.registered hregistered.1 hregistered.2
    simp only [State.receive, hreceive]
    have hentry := entry_changeReactorObservation
      (σ := { σ with
        recvOngoing := false
        recvBuffview := bufferView
        recvCompletionHandler := some handler }) hvalid true resources
    refine
      { recvOngoing := rfl
        unregistered := h.unregistered
        registered := fun _ _ => ⟨?_, hblocking⟩
        accepted := fun _ => hregistered
        restarted := fun _ => by simp
        answers := .inr ?_ }
    · refine (congrArg OperationEntry.valid hentry).trans ?_
      exact hvalid
    · simp [State.changeReactorObservation, hall]

/-- An event of epoll changes what is captured, not what is registered. -/
theorem handleSingleEvent (h : Consistent σ) (events : BitVec 32) :
    Consistent { σ with
      reactor := (σ.reactor.handleSingleEvent ⟨events, σ.base.reactorHandle⟩ σ.queued).1
      queued := (σ.reactor.handleSingleEvent ⟨events, σ.base.reactorHandle⟩ σ.queued).2 } := by
  obtain ⟨posted, heq, -⟩ :=
    σ.reactor.handleSingleEvent_eq ⟨events, σ.base.reactorHandle⟩ σ.queued
  rw [heq]
  refine h.with_reactor _ σ.phase ?_ ?_
  · intro hvalid
    simpa [State.entry] using hvalid
  · intro hread
    simpa [State.entry] using hread

/-- The handler of a pending receive is invoked for a read event, which is then not monitored any
more. -/
theorem handleReceive (h : Consistent σ) (hpending : σ.pending) {reactor : EpollReactor Unit}
    (queued : List Operation) (ev : Events)
    (hvalid : (reactor.operations σ.base.reactorHandle).valid = true)
    (hread : (reactor.operations σ.base.reactorHandle).monitoredEvents.hasReadEvent = false) :
    Consistent ({ σ with reactor, queued }.handleReceive ev) where
  recvOngoing := h.recvOngoing
  unregistered := h.unregistered
  registered hreactor hopen := ⟨hvalid, (h.registered hreactor hopen).2⟩
  accepted := h.accepted
  restarted hτ := by cases hτ
  answers := .inl ⟨h.pending_iff.mp hpending, fun _ => hread⟩

/-- A read event that is reported after the first receive finds one pending. -/
theorem pending_of_hasReadEvent (h : Consistent σ) (hne : σ.accepted ≠ [])
    (hread : σ.entry.monitoredEvents.hasReadEvent = true) : σ.pending := by
  rcases h.answers with ⟨-, hmonitored⟩ | hlast
  · rw [hmonitored hne] at hread
    cases hread
  · exact h.pending_iff.mpr hlast

end Consistent

/-- The rest of `HandleReceive()` takes the read event out of the monitored events, whether or not
the completion handler has started a receive. -/
theorem entry_handlerReturned (hongoing : σ.recvOngoing = false) (hvalid : σ.entry.valid = true)
    (resources : Bool) :
    (σ.handlerReturned resources).entry = { σ.entry with
      monitoredEvents := σ.entry.monitoredEvents.consume .kRead } := by
  simp only [State.handlerReturned, hongoing, Bool.not_false, ↓reduceIte]
  exact entry_changeReactorObservation hvalid false resources

/-- The end of an operation keeps the registration of the entry. -/
theorem entry_endOperation (σ : State H) (ev : Events) :
    (σ.endOperation ev).entry.valid = σ.entry.valid ∧
      (σ.endOperation ev).entry.monitoredEvents = σ.entry.monitoredEvents := by
  unfold State.endOperation
  split
  · exact ⟨rfl, rfl⟩
  · simp [State.entry, EpollReactor.finishOperation_eq]

namespace Consistent

theorem handlerReturned (h : Consistent σ) (resources : Bool) :
    Consistent (σ.handlerReturned resources) := by
  have hongoing := h.recvOngoing
  cases hvalid : σ.entry.valid with
  | true =>
    have hentry := entry_handlerReturned hongoing hvalid resources
    simp only [State.handlerReturned, hongoing, Bool.not_false, ↓reduceIte] at hentry ⊢
    refine h.with_reactor σ.queued σ.phase (fun _ => ?_) ?_
    · exact (congrArg OperationEntry.valid hentry).trans hvalid
    · intro hread
      refine (congrArg (fun entry => entry.monitoredEvents.hasReadEvent) hentry).trans ?_
      simp [hread]
  | false =>
    -- the change fails, and the failure is only logged
    have hvalid : (σ.reactor.operations σ.base.reactorHandle).valid = false := hvalid
    have hsame : σ.handlerReturned resources = σ := by
      rw [State.handlerReturned, hongoing, Bool.not_false, if_pos rfl]
      simp [State.changeReactorObservation, EpollReactor.doModifyEvent, hvalid]
    rw [hsame]
    exact h

theorem endOperation (h : Consistent σ) (ev : Events) : Consistent (σ.endOperation ev) := by
  unfold State.endOperation
  split
  · exact h.with_reactor σ.queued .terminated id id
  · refine h.with_reactor σ.queued .idle ?_ ?_
    · intro hvalid
      simpa [State.entry, EpollReactor.finishOperation_eq] using hvalid
    · intro hread
      simpa [State.entry, EpollReactor.finishOperation_eq] using hread

end Consistent

/-! ## Steps -/

/-- A supported step that invokes no handler and is no call of `ReceiveAsync()` keeps what it has
to. -/
theorem completes_of_quiet {a : Action H} (h : Consistent τ) (hinvoked : τ.invoked = σ.invoked)
    (hsupported : Supported σ a)
    (ha : ∀ fromHandler bufferView handler resources,
      a ≠ .receiveAsync fromHandler bufferView handler resources) : Completes σ a τ where
  once := h.once
  pending hne := absurd hinvoked hne
  rejects fromHandler bufferView handler resources heq :=
    absurd heq (ha fromHandler bufferView handler resources)
  monitors := by
    rintro resources ev rfl hphase hrestarted
    rw [hsupported ev hphase] at hrestarted
    cases hrestarted

/-- Such a step need not be looked at further. -/
theorem step_of_quiet {a : Action H} (h : Consistent τ) (hinvoked : τ.invoked = σ.invoked)
    (hsupported : Supported σ a)
    (ha : ∀ fromHandler bufferView handler resources,
      a ≠ .receiveAsync fromHandler bufferView handler resources) :
    (Completes σ a τ ↔ Supported σ a) ∧ (Supported σ a → Consistent τ) :=
  ⟨iff_of_true (completes_of_quiet h hinvoked hsupported ha) hsupported, fun _ => h⟩

/-- `ReceiveAsync()` keeps what it has to exactly if no receive is pending. -/
theorem completes_receive_iff (h : Consistent σ) (fromHandler : Bool) (bufferView : BufferView)
    (handler : H) (resources : Bool) :
    Completes σ (.receiveAsync fromHandler bufferView handler resources)
      (σ.receive fromHandler bufferView handler resources) ↔ ¬ σ.pending := by
  constructor
  · intro hcompletes hpending
    -- the call would have to fail, but nothing in `CheckRecvPossible()` sees the pending one
    obtain ⟨⟨ec, herror⟩, -⟩ := hcompletes.rejects _ _ _ _ rfl hpending
    exact h.not_error_of_pending hpending bufferView handler resources ec herror
  · intro hpending
    have hinvoked : (σ.receive fromHandler bufferView handler resources).invoked = σ.invoked := by
      rcases receiveAsync_cases σ bufferView handler resources with ⟨ec, hreceive⟩ | ⟨-, hreceive⟩
      · simp only [State.receive, hreceive]
      · simp only [State.receive, hreceive]
        rfl
    exact
      { once := (h.receive hpending fromHandler bufferView handler resources).once
        pending := fun hne => absurd hinvoked hne
        rejects := fun _ _ _ _ _ hpending' => absurd hpending' hpending
        monitors := fun _ _ ha => by cases ha }

/-- A read event completes the receive it has to exactly if there has been one. -/
theorem completes_handleReceive_iff (h : Consistent σ) {reactor : EpollReactor Unit}
    {sock : Option Unit} {ev : Events}
    (hbegin : σ.reactor.beginOperation σ.base.reactorHandle = (reactor, some (sock, ev)))
    (hread : ev.hasReadEvent = true) (queued : List Operation) :
    (Completes σ .begin ({ σ with reactor, queued }.handleReceive ev) ↔ σ.accepted ≠ []) ∧
      (σ.accepted ≠ [] → Consistent ({ σ with reactor, queued }.handleReceive ev)) := by
  obtain ⟨-, rfl, hvalid, hmonitored⟩ := entry_of_beginOperation hbegin
  -- what is reported was monitored, and is consumed by the report
  have hwasMonitored : σ.entry.monitoredEvents.hasReadEvent = true := by
    rw [Events.hasReadEvent_intersection, Bool.and_eq_true] at hread
    exact hread.2
  have hkept : σ.accepted ≠ [] → Consistent ({ σ with reactor, queued }.handleReceive
      (σ.entry.capturedEvents.intersection σ.entry.monitoredEvents)) := by
    intro hne
    refine h.handleReceive (h.pending_of_hasReadEvent hne hwasMonitored) queued _ hvalid ?_
    rw [hmonitored, Events.hasReadEvent_consume, hread, Bool.not_true, Bool.and_false]
  refine ⟨⟨?_, ?_⟩, hkept⟩
  · -- before the first receive there is no handler to invoke
    intro hcompletes hnil
    have hlength := hcompletes.once.length_le
    simp [State.handleReceive, hnil] at hlength
  · intro hne
    exact
      { once := (hkept hne).once
        pending := fun _ => h.pending_of_hasReadEvent hne hwasMonitored
        rejects := fun _ _ _ _ ha => by cases ha
        monitors := fun _ _ ha => by cases ha }

/-- The end of an event after its completion handler has returned. -/
theorem completes_handlerReturned_iff (h : Consistent σ) {ev : Events}
    (hphase : σ.phase = .handling ev) (resources : Bool) :
    Completes σ (.finish resources) ((σ.handlerReturned resources).endOperation ev) ↔
      Supported σ (.finish resources) := by
  have hkept := (h.handlerReturned resources).endOperation ev
  have hinvoked : ((σ.handlerReturned resources).endOperation ev).invoked = σ.invoked := by
    simp only [State.endOperation, State.handlerReturned, State.changeReactorObservation]
    split <;> split <;> rfl
  constructor
  · intro hcompletes ev' _
    by_contra hrestarted
    rw [Bool.not_eq_false] at hrestarted
    -- the receive was accepted, so the entry is valid and the event is removed from it
    obtain ⟨hreactor, hopen⟩ := h.accepted (h.restarted hrestarted)
    have hvalid := (h.registered hreactor hopen).1
    have hread := hcompletes.monitors resources ev rfl hphase hrestarted
    rw [(entry_endOperation _ ev).2, entry_handlerReturned h.recvOngoing hvalid,
      Events.hasReadEvent_consume, Bool.and_eq_true] at hread
    exact absurd hread.2 (by decide)
  · intro hsupported
    exact completes_of_quiet hkept hinvoked hsupported (by simp)

/-- The start of the operation of the socket's entry. -/
theorem completes_begin_iff (h : Consistent σ) (hτ : σ.step .begin = some τ) :
    (Completes σ .begin τ ↔ Supported σ .begin) ∧ (Supported σ .begin → Consistent τ) := by
  simp only [State.step] at hτ
  split_ifs at hτ with _ hqueued
  rcases hbegin : σ.reactor.beginOperation σ.base.reactorHandle with ⟨reactor, _ | ⟨sock, ev⟩⟩
  · -- nothing to report
    rw [hbegin] at hτ
    obtain rfl := Option.some.inj hτ
    obtain ⟨hvalid, hmonitored⟩ := entry_of_beginOperation_none hbegin
    have hkept := h.with_reactor (σ.queued.erase (.ioEvent σ.base.reactorHandle)) σ.phase
      (fun hentry => hvalid.trans hentry)
      (fun hread => (congrArg Events.hasReadEvent hmonitored).trans hread)
    have hquiet : Supported σ .begin := by
      rintro ⟨-, sock, ev, hsome, -⟩
      rw [hbegin] at hsome
      cases hsome
    exact step_of_quiet hkept rfl hquiet (by simp)
  · rw [hbegin] at hτ
    obtain rfl := Option.some.inj hτ
    obtain ⟨-, hev, hvalid, hmonitored⟩ := entry_of_beginOperation hbegin
    -- an event that is not for `HandleReceive()` invokes no handler
    have hquiet : ∀ ev', (σ.base.isClosed = true ∨ ev.hasReadEvent = false) →
        Consistent { σ with
          reactor
          queued := σ.queued.erase (.ioEvent σ.base.reactorHandle)
          phase := .returning ev' } ∧ Supported σ .begin := by
      intro ev' hno
      refine ⟨h.with_reactor _ _ (fun _ => hvalid) ?_, ?_⟩
      · intro hread
        rw [hmonitored, Events.hasReadEvent_consume, hread, Bool.false_and]
      · rintro ⟨hopen, sock', ev'', hsome, hread⟩
        rw [hbegin] at hsome
        obtain ⟨-, rfl⟩ := Prod.mk.inj (Option.some.inj hsome)
        rcases hno with hclosed | hnoRead
        · rw [hclosed] at hopen
          cases hopen
        · rw [hnoRead] at hread
          cases hread
    unfold State.onReactorEvent
    split
    · rename_i hclosed
      obtain ⟨hkept, hsupported⟩ := hquiet {} (.inl hclosed)
      exact step_of_quiet hkept rfl hsupported (by simp)
    · rename_i hopen
      have hopen : σ.base.isClosed = false := Bool.not_eq_true _ ▸ hopen
      split
      · rename_i hread
        have hreports : σ.reportsRead := ⟨hopen, sock, ev, by rw [hbegin], hread⟩
        obtain ⟨hiff, hkeep⟩ := completes_handleReceive_iff h hbegin hread
          (σ.queued.erase (.ioEvent σ.base.reactorHandle))
        refine ⟨hiff.trans ⟨fun hne _ => hne, fun hsupported => hsupported hreports⟩, ?_⟩
        intro hsupported
        exact hkeep (hsupported hreports)
      · rename_i hread
        obtain ⟨hkept, hsupported⟩ := hquiet ev (.inr (by simpa using hread))
        exact step_of_quiet hkept rfl hsupported (by simp)

/-- Every step from a consistent state keeps what it has to exactly if it is supported, and then the
state stays consistent. -/
theorem Consistent.step (h : Consistent σ) {a : Action H} (hτ : σ.step a = some τ) :
    (Completes σ a τ ↔ Supported σ a) ∧ (Supported σ a → Consistent τ) := by
  cases a with
  | openSocket fd resources =>
    have hkept : Consistent τ ∧ τ.invoked = σ.invoked := by
      simp only [State.step] at hτ
      split_ifs at hτ with _ hopen
      · obtain rfl := Option.some.inj hτ
        exact ⟨h, rfl⟩
      · obtain rfl := Option.some.inj hτ
        exact h.doOpenSocket (by simpa using hopen) fd resources
    exact step_of_quiet hkept.1 hkept.2 trivial (by simp)
  | receiveAsync fromHandler bufferView handler resources =>
    obtain rfl : σ.receive fromHandler bufferView handler resources = τ := by
      simp only [State.step] at hτ
      split at hτ
      · cases hτ
      · split at hτ
        · exact Option.some.inj hτ
        · exact Option.some.inj hτ
        · cases hτ
    exact ⟨completes_receive_iff h fromHandler bufferView handler resources,
      fun hsupported => h.receive hsupported fromHandler bufferView handler resources⟩
  | event events =>
    simp only [State.step] at hτ
    split_ifs at hτ
    obtain rfl := Option.some.inj hτ
    have hkept := h.handleSingleEvent events
    exact step_of_quiet hkept rfl trivial (by simp)
  | begin => exact completes_begin_iff h hτ
  | finish resources =>
    simp only [State.step] at hτ
    split_ifs at hτ
    split at hτ
    · rename_i ev hphase
      obtain rfl := Option.some.inj hτ
      exact ⟨completes_handlerReturned_iff h hphase resources,
        fun _ => (h.handlerReturned resources).endOperation ev⟩
    · rename_i ev hphase
      obtain rfl := Option.some.inj hτ
      have hkept := h.endOperation ev
      have hinvoked : (σ.endOperation ev).invoked = σ.invoked := by
        unfold State.endOperation
        split <;> rfl
      -- no completion handler was called
      have hsupported : Supported σ (.finish resources) := by
        intro ev' hhandling
        rw [hphase] at hhandling
        cases hhandling
      exact step_of_quiet hkept hinvoked hsupported (by simp)
    · cases hτ
    · cases hτ

/-! ## Runs -/

/-- In every run of a datagram socket the receive handlers are invoked once for each successful
`ReceiveAsync()`, no receive replaces a pending one and those started by a completion handler stay
monitored if and only if no read event is reported before the first receive, none is started while
one is pending, and no completion handler that returns has started one. -/
theorem receive_completion_iff (reactor : EpollReactor Unit) (hasReactor : Bool)
    (as : List (Action H)) :
    (machine H).Along Completes { reactor, hasReactor } as ↔
      (machine H).Along (fun σ a _ => Supported σ a) { reactor, hasReactor } as := by
  refine ToMathlib.Machine.along_iff_of_invariant (Consistent.init reactor hasReactor) ?_ ?_
  · intro σ a τ h hτ
    exact (h.step hτ).1
  · intro σ a τ h hτ hcompletes
    obtain ⟨hiff, hkeep⟩ := h.step hτ
    exact hkeep (hiff.mp hcompletes)

/-- A socket with a reactor that has one entry. -/
def constructed : State ℕ := { reactor := { size := 1 } }

/-- A datagram arrives before any receive was started; a second receive is started while the first
one is pending; a completion handler starts the next receive. -/
theorem not_receive_completion :
    ¬ (machine ℕ).Along Completes constructed
      [.openSocket 3 true, .event EPOLLIN, .begin] ∧
    ¬ (machine ℕ).Along Completes constructed
      [.openSocket 3 true, .receiveAsync false ⟨100, 8⟩ 1 true,
        .receiveAsync false ⟨200, 8⟩ 2 true] ∧
    ¬ (machine ℕ).Along Completes constructed
      [.openSocket 3 true, .receiveAsync false ⟨100, 8⟩ 1 true, .event EPOLLIN, .begin,
        .receiveAsync true ⟨200, 8⟩ 2 true, .finish true] := by
  refine ⟨?_, ?_, ?_⟩
  · intro h
    have hopened := (h _ rfl).2
    have hevent := (hopened _ rfl).2
    have honce := (hevent _ rfl).1.once.length_le
    exact absurd honce (by decide)
  · intro h
    have hopened := (h _ rfl).2
    have hreceived := (hopened _ rfl).2
    obtain ⟨ec, herror⟩ := ((hreceived _ rfl).1.rejects _ _ _ _ rfl (by decide)).1
    cases herror
  · intro h
    have hopened := (h _ rfl).2
    have hreceived := (hopened _ rfl).2
    have hevent := (hreceived _ rfl).2
    have hbegun := (hevent _ rfl).2
    have hrestarted := (hbegun _ rfl).2
    have hread := (hrestarted _ rfl).1.monitors true _ rfl rfl rfl
    exact absurd hread (by decide)

end Asrt.Socket.Datagram
