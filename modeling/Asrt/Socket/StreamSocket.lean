import Asrt.Socket.BasicSocket

/-!
# The connected stream socket

`BasicStreamSocket` (`socket/basic_stream_socket.hpp`) and its `AsyncOperation`s
(`socket/async_operation.hpp`) over the socket's entry of the reactor, with the kernel's receive
buffer, the reactor thread and the executor thread that runs the socket's operation. The socket is
connected until it is closed.

All of this holds the socket's mutex, which is that of the entry, except while a completion handler
runs. The operation is therefore cut where it calls a completion handler: it calls that of the
receive, then that of the send. Completion handlers, like any other thread, may start receives and
sends and may close the socket.

The socket is monitored edge-triggered: an event is reported once for what has arrived since the
last one, and it names all that the socket is ready for when `epoll_wait()` returns it.
-/

namespace Asrt.Socket.Stream

open Reactor

/-- `OperationStatus` -/
inductive OperationStatus
  | kComplete
  | kAsyncNeeded
deriving DecidableEq, Repr

/-- What `recv()` or `send()` returns: a number of bytes, `EAGAIN`, or another error. -/
inductive IoResult
  | bytes (n : ℕ)
  | busy
  | error
deriving DecidableEq, Repr

/-- The number of bytes that the call has transferred. -/
def IoResult.count : IoResult → ℕ
  | bytes n => n
  | busy | error => 0

/-- `AsyncOperation`, without what only the completion handler sees. -/
structure AsyncOperation where
  /-- `opeartion_ongoing_` -/
  operationOngoing : Bool := false
  /-- `is_exhaustive_` -/
  isExhaustive : Bool := false
  /-- `buffer_view_.size()` -/
  bufferView : ℕ := 0
deriving DecidableEq, Repr

namespace AsyncOperation

/-- `OnInitiation()` -/
def onInitiation (bufferView : ℕ) (isExhaustive : Bool) (bytesHandled : ℕ) : AsyncOperation where
  operationOngoing := true
  isExhaustive
  bufferView := bufferView - bytesHandled

/-- `OnContinuation()` -/
def onContinuation (op : AsyncOperation) (bytesHandled : ℕ) : AsyncOperation :=
  { op with operationOngoing := true, bufferView := op.bufferView - bytesHandled }

/-- `OnCompletion()`, in the reactor's context. -/
def onCompletion (op : AsyncOperation) : AsyncOperation := { op with operationOngoing := false }

end AsyncOperation

/-- The status of `DoPerform()` after the system call on a buffer of the given size. A receive of
nothing is the end of the stream. -/
def performStatus (isReceive : Bool) (size : ℕ) (isExhaustive : Bool) : IoResult → OperationStatus
  | .busy => .kAsyncNeeded
  | .error => .kComplete
  | .bytes n =>
    if n = size then .kComplete
    else if isReceive ∧ n = 0 then .kComplete
    else if isExhaustive then .kAsyncNeeded
    else .kComplete

/-- The kernel's side of `recv()`: it returns what there is, up to the size of the buffer, or finds
nothing. An error leaves the data alone. -/
def Receives (buffer size : ℕ) : IoResult → Prop
  | .bytes n => n = min size buffer
  | .busy => buffer = 0
  | .error => True

instance (buffer size : ℕ) : (result : IoResult) → Decidable (Receives buffer size result)
  | .bytes n => inferInstanceAs (Decidable (n = min size buffer))
  | .busy => inferInstanceAs (Decidable (buffer = 0))
  | .error => inferInstanceAs (Decidable True)

/-- The functions that start a receive. -/
inductive ReceiveFunction
  | receiveAsync
  | receiveSomeAsync
  | tryReceiveAsync
deriving DecidableEq, Repr

/-- Where the socket's operation is. -/
inductive Phase
  /-- It is not posted. -/
  | idle
  /-- It waits in the executor's queue. -/
  | queued
  /-- The completion handler of the receive runs; the operation was given these events. -/
  | receiveCallback (events : Events)
  /-- The completion handler of the send runs. -/
  | sendCallback
deriving DecidableEq, Repr

/-- The socket, its reactor and the kernel's side of it. -/
structure State where
  reactor : EpollReactor Unit
  /-- `reactor_handle_` -/
  reactorHandle : HandlerTag
  /-- `stream_sock_state_` is `kConnected`. -/
  isConnected : Bool := true
  /-- `recv_operation_` -/
  recvOperation : AsyncOperation := {}
  /-- `send_operation_` -/
  sendOperation : AsyncOperation := {}
  /-- The number of bytes in the kernel's receive buffer. -/
  buffer : ℕ := 0
  /-- Data has arrived since the last event. -/
  edge : Bool := false
  /-- The event of the socket that the reactor thread holds and has not handled. -/
  fetched : Option (BitVec 32) := none
  phase : Phase := .idle

/-- The steps of the clients, the kernel, the reactor thread and the executor threads. `result` and
`sent` are what `recv()` and `send()` return, if they are called. -/
inductive Action
  /-- A receive is started, from outside or from a completion handler. -/
  | receive (function : ReceiveFunction) (size : ℕ) (result : IoResult)
  /-- `SendAsync()`. `resources` is the outcome of the epoll update. -/
  | send (size : ℕ) (sent : IoResult) (resources : Bool)
  /-- Data arrives. -/
  | arrive (bytes : ℕ)
  /-- `epoll_wait()` returns an event, with what there is besides data. -/
  | wait (others : BitVec 32)
  /-- `HandleSingleEvent()` -/
  | handle
  /-- An executor thread starts the operation, up to a completion handler or to its end. -/
  | begin (result sent : IoResult) (resources : Bool)
  /-- The completion handler of the receive has returned, and the operation goes on. -/
  | resume (sent : IoResult) (resources : Bool)
  /-- The completion handler of the send has returned, and the operation ends. -/
  | finish
  /-- The first part of `Close()`, `OnCloseEvent()`, which takes no mutex. -/
  | onCloseEvent
  /-- The second part of `Close()`, the deregistration. -/
  | deregister
deriving DecidableEq, Repr

namespace State

/-- The socket's entry in the operation table. -/
abbrev entry (σ : State) : OperationEntry Unit := σ.reactor.operations σ.reactorHandle

/-- `AsyncReadOperationStarted()` -/
def asyncReadOperationStarted (σ : State) : State :=
  { σ with reactor := σ.reactor.onStartOfOperation σ.reactorHandle .kRead true }

/-- `AsyncWriteOperationStarted()` -/
def asyncWriteOperationStarted (σ : State) (resources : Bool) : State :=
  { σ with reactor := σ.reactor.onStartOfOperation σ.reactorHandle .kWrite resources }

/-- `ReadEventConsumed()` -/
def readEventConsumed (σ : State) : State :=
  { σ with reactor := σ.reactor.setEntry σ.reactorHandle { σ.entry with
    capturedEvents := σ.entry.capturedEvents.consume .kRead } }

/-- `DoReceiveAsync()`. Without a speculative try the receive is left to the reactor. A try finds
the receive that is pending, if there is one, and is refused; else it may leave a rest to the
reactor, and the read event is consumed. A complete receive is reported by a job of its own. -/
def doReceiveAsync (σ : State) (size : ℕ) (speculative exhaustive : Bool) (result : IoResult) :
    Option State :=
  if !speculative then
    some { σ with
      recvOperation := .onInitiation size exhaustive 0 }.asyncReadOperationStarted
  else if σ.recvOperation.operationOngoing then some σ
  else if size = 0 then some σ
  else if Receives σ.buffer size result then
    let σ := { σ with buffer := σ.buffer - result.count }
    match performStatus true size exhaustive result with
    | .kComplete => some σ
    | .kAsyncNeeded =>
      some { σ with
        recvOperation := .onInitiation size exhaustive result.count
        }.asyncReadOperationStarted.readEventConsumed
  else none

/-- `ReceiveAsync()`, `ReceiveSomeAsync()` and `TryReceiveAsync()`. The first two try at once if the
last event said that the socket is readable. -/
def receiveAsync (σ : State) (function : ReceiveFunction) (size : ℕ) (result : IoResult) :
    Option State :=
  match function with
  | .receiveAsync => σ.doReceiveAsync size σ.entry.capturedEvents.hasReadEvent true result
  | .receiveSomeAsync => σ.doReceiveAsync size σ.entry.capturedEvents.hasReadEvent false result
  | .tryReceiveAsync => σ.doReceiveAsync size true true result

/-- `SendAsync()` and `DoSendAsync()`, which always try at once. -/
def sendAsync (σ : State) (size : ℕ) (sent : IoResult) (resources : Bool) : Option State :=
  if σ.sendOperation.operationOngoing then some σ
  else if sent.count ≤ size then
    match performStatus false size true sent with
    | .kComplete => some σ
    | .kAsyncNeeded =>
      some ({ σ with
        sendOperation := .onInitiation size true sent.count }.asyncWriteOperationStarted resources)
  else none

/-- The end of the socket's operation. -/
def finishOperation (σ : State) : State :=
  { σ with reactor := σ.reactor.finishOperation σ.reactorHandle, phase := .idle }

/-- `HandleSend()` -/
def handleSend (σ : State) (sent : IoResult) (resources : Bool) : Option State :=
  if sent.count ≤ σ.sendOperation.bufferView then
    match performStatus false σ.sendOperation.bufferView σ.sendOperation.isExhaustive sent with
    | .kComplete =>
      some { σ with sendOperation := σ.sendOperation.onCompletion, phase := .sendCallback }
    | .kAsyncNeeded =>
      some ({ σ with sendOperation := σ.sendOperation.onContinuation sent.count
        }.asyncWriteOperationStarted resources).finishOperation
  else none

/-- The second part of `HandleDataTranster()`, about sending. That no send is ongoing is checked
once more in the source, with the mutex held since the first check. -/
def handleWriteEvent (σ : State) (events : Events) (sent : IoResult) (resources : Bool) :
    Option State :=
  if σ.sendOperation.operationOngoing ∧ events.hasWriteEvent ∧ σ.isConnected then
    σ.handleSend sent resources
  else some σ.finishOperation

/-- `HandleReceive()`. A receive of nothing is complete without a call of `recv()`. -/
def handleReceive (σ : State) (events : Events) (result sent : IoResult) (resources : Bool) :
    Option State :=
  if σ.recvOperation.bufferView = 0 then
    some { σ with
      recvOperation := σ.recvOperation.onCompletion, phase := .receiveCallback events }
  else if Receives σ.buffer σ.recvOperation.bufferView result then
    let σ := { σ with buffer := σ.buffer - result.count }
    match performStatus true σ.recvOperation.bufferView σ.recvOperation.isExhaustive result with
    | .kComplete =>
      some { σ with
        recvOperation := σ.recvOperation.onCompletion, phase := .receiveCallback events }
    | .kAsyncNeeded =>
      { σ with
        recvOperation := σ.recvOperation.onContinuation result.count
        }.asyncReadOperationStarted.handleWriteEvent events sent resources
  else none

/-- `HandleDataTranster()` -/
def handleDataTranster (σ : State) (events : Events) (result sent : IoResult) (resources : Bool) :
    Option State :=
  if events.hasReadEvent then
    if σ.recvOperation.operationOngoing then σ.handleReceive events result sent resources
    else
      { σ with reactor := σ.reactor.onEventIgnored σ.reactorHandle .kRead }.handleWriteEvent events
        sent resources
  else σ.handleWriteEvent events sent resources

/-- `OnReactorEventImpl()` -/
def onReactorEventImpl (σ : State) (events : Events) (result sent : IoResult) (resources : Bool) :
    Option State :=
  if σ.isConnected then σ.handleDataTranster events result sent resources
  else
    some { σ with
      reactor := σ.reactor.onEventIgnored σ.reactorHandle events }.finishOperation

/-- The socket's operation, up to the point where its mutex is released. -/
def beginOperation (σ : State) (result sent : IoResult) (resources : Bool) : Option State :=
  match σ.reactor.beginOperation σ.reactorHandle with
  | (reactor, some (_, events)) =>
    { σ with reactor }.onReactorEventImpl events result sent resources
  | (reactor, none) => some { σ with reactor, phase := .idle }

/-- `HandleSingleEvent()` on an event of the socket. -/
def handleEvent (σ : State) (mask : BitVec 32) : State :=
  let handled := σ.reactor.handleSingleEvent ⟨mask, σ.reactorHandle⟩ []
  { σ with
    reactor := handled.1
    fetched := none
    phase := if handled.2 = [] then σ.phase else .queued }

/-- The events that the kernel reports: data, if there is any, and the others. -/
def readyMask (σ : State) (others : BitVec 32) : BitVec 32 :=
  (if 0 < σ.buffer then EPOLLIN else 0) ||| others

/-- The step labelled by an action, if it is enabled. -/
def step (σ : State) : Action → Option State
  | .receive function size result => σ.receiveAsync function size result
  | .send size sent resources => σ.sendAsync size sent resources
  | .arrive bytes =>
    if 0 < bytes then some { σ with buffer := σ.buffer + bytes, edge := true } else none
  | .wait others =>
    if σ.fetched = none ∧ (σ.edge ∨ others ≠ 0) then
      some { σ with
        edge := false
        fetched := if σ.readyMask others = 0 then none else some (σ.readyMask others) }
    else none
  | .handle => σ.fetched.map σ.handleEvent
  | .begin result sent resources =>
    if σ.phase = .queued then σ.beginOperation result sent resources else none
  | .resume sent resources =>
    match σ.phase with
    | .receiveCallback events => σ.handleWriteEvent events sent resources
    | _ => none
  | .finish => if σ.phase = .sendCallback then some σ.finishOperation else none
  | .onCloseEvent => some { σ with isConnected := false }
  | .deregister =>
    if σ.isConnected then none
    else some { σ with reactor := (σ.reactor.derigsterImpl σ.reactorHandle true).1 }

end State

/-- The socket as a machine: it has just been registered with its reactor, which reports the data
that has arrived before. -/
def machine : ToMathlib.Machine State Action where
  init σ := ∃ (r reactor : EpollReactor Unit) (fd : NativeHandle) (reactorHandle : HandlerTag)
      (buffer : ℕ),
    r.registerImpl .ioEvent fd kReadEdge () true = (reactor, .ok reactorHandle) ∧
      σ = { reactor, reactorHandle, buffer, edge := 0 < buffer }
  step := State.step

end Asrt.Socket.Stream
