import Asrt.Socket.AsyncOperation

/-!
# The operations of a stream socket

`BasicStreamSocket` (`socket/basic_stream_socket.hpp`) with its three asynchronous operations: the
functions that start them, the events of the reactor that continue them, the jobs that report what
was complete at once, and `Open()` and `Close()`. What the reactor and the kernel answer are
arguments.

An event holds the socket's mutex, except while a completion handler runs; it is cut there. The
handler is not moved out of the operation for the call: it runs in the place where it is stored.

## Main definitions

* `Start`: a call of a function that starts an operation.
* `StreamSocket`: the socket, with its functions.
* `step`: the functions as the steps of a machine.

## Main results

* `overlapping_start_iff`: when a start leaves the operation that is ongoing alone.
* `running_callback_untouched_iff`: when a completion handler and its result stay in place while it
  runs.
-/

namespace Asrt.Socket.Async

open Reactor (Events HandlerTag)
open ByteStream (SockErrorCode)
open Asrt.Socket.Stream (ReceiveFunction)

/-- `BasicStreamSocketState` -/
inductive BasicStreamSocketState
  | kDisconnected
  | kConnecting
  | kConnected
  | kDormant
  | kConnectError
deriving DecidableEq, Repr

/-- The functions that start an operation. -/
inductive StartFunction
  | connectAsync
  | sendAsync
  | receive (function : ReceiveFunction)
deriving DecidableEq, Repr

/-- A call of one of these functions. -/
structure Start (H : Type) where
  function : StartFunction
  /-- The buffer, or the address of the peer. -/
  view : BufferView
  callback : H
  /-- `IsSocketReadableUnsafe()`: what the last event of the reactor said. -/
  readable : Bool
  /-- What the system call returns, if there is one. -/
  call : SystemResult

namespace Start

variable {H : Type}

/-- The kind of the operation. -/
def opType (a : Start H) : OperationType :=
  match a.function with
  | .connectAsync => .kConnect
  | .sendAsync => .kSend
  | .receive _ => .kReceive

/-- `kSpeculative` is in the `op_mode`. -/
def allowSpeculative (a : Start H) : Bool :=
  match a.function with
  | .connectAsync | .sendAsync | .receive .tryReceiveAsync => true
  | .receive .receiveAsync | .receive .receiveSomeAsync => a.readable

/-- `kExhaustive` is in the `op_mode`. -/
def isExhaustive (a : Start H) : Bool :=
  match a.function with
  | .sendAsync | .receive .receiveAsync | .receive .tryReceiveAsync => true
  | .connectAsync | .receive .receiveSomeAsync => false

/-- The same call with another callback. -/
def map {K : Type} (f : H → K) (a : Start H) : Start K :=
  ⟨a.function, a.view, f a.callback, a.readable, a.call⟩

end Start

/-- A job that reports the result of an operation that was complete at once. -/
structure Job (H : Type) where
  opType : OperationType
  callback : Option H
  result : CompletionResult

/-- Where the socket's operation in the reactor is. -/
inductive Phase
  /-- It is not executing. -/
  | idle
  /-- It has called the completion handler of an operation, and was given these events. -/
  | callback (opType : OperationType) (events : Events)
deriving DecidableEq, Repr

/-- `BasicStreamSocket` -/
structure StreamSocket (H : Type) where
  base : BasicSocket := {}
  /-- `stream_sock_state_` -/
  streamSockState : BasicStreamSocketState := .kDisconnected
  /-- `send_operation_`, `recv_operation_` and `connect_operation_` -/
  operation : OperationType → AsyncOperation H := fun _ => {}
  /-- The posted jobs. -/
  jobs : List (Job H) := []
  phase : Phase := .idle
  /-- Ghost: the completion handlers that were called, with the results. -/
  called : List (Option H × CompletionResult) := []
  /-- Ghost: the operations that events have continued, by their completion handlers. -/
  continued : List (Option H) := []

namespace StreamSocket

variable {H : Type}

/-- Replace one of the operations. -/
def setOperation (s : StreamSocket H) (opType : OperationType) (op : AsyncOperation H) :
    StreamSocket H :=
  { s with operation := Function.update s.operation opType op }

/-- The state that the end of a connect sets. -/
def connectState : CompletionResult → BasicStreamSocketState
  | .ok _ => .kConnected
  | .error _ => .kConnectError

/-- `DoConnectAsync()`, `DoSendAsync()` and `DoReceiveAsync()` with their `op_mode`: what is
complete at once is reported by a job. -/
def doStart (s : StreamSocket H) (opType : OperationType) (allowSpeculative isExhaustive : Bool)
    (view : BufferView) (callback : H) (call : SystemResult) : StreamSocket H :=
  match (s.operation opType).performInitiation opType allowSpeculative isExhaustive view callback
      call with
  -- `PostImmediateExecutorJob()` of the `immediate_completion`
  | (op, some (callback, result)) =>
    { s.setOperation opType op with jobs := s.jobs ++ [⟨opType, callback, result⟩] }
  | (op, none) =>
    { s.setOperation opType op with
      streamSockState := if opType = .kConnect then .kConnecting else s.streamSockState }

/-- `ConnectAsync()`, `SendAsync()`, `ReceiveAsync()`, `ReceiveSomeAsync()` and `TryReceiveAsync()`
-/
def start (s : StreamSocket H) (a : Start H) : StreamSocket H :=
  s.doStart a.opType a.allowSpeculative a.isExhaustive a.view a.callback a.call

/-- A job runs. That of a connect sets the state of the socket, whatever it is by then. -/
def runJob (s : StreamSocket H) (i : ℕ) (job : Job H) : StreamSocket H :=
  { s with
    jobs := s.jobs.eraseIdx i
    streamSockState :=
      if job.opType = .kConnect then connectState job.result else s.streamSockState
    called := s.called ++ [(job.callback, job.result)] }

/-- `HandleConnectionEstablishment()`, `HandleReceive()` and `HandleSend()`, up to the call of the
completion handler if there is one. -/
def handle (s : StreamSocket H) (opType : OperationType) (events : Events) (call : SystemResult) :
    StreamSocket H :=
  let continued := s.continued ++ [(s.operation opType).completetionHandler.value]
  match (s.operation opType).performContinuation opType call with
  -- `on_immediate_completion`, which unlocks the mutex for the call
  | (op, some (callback, result)) =>
    { s.setOperation opType op with
      streamSockState := if opType = .kConnect then connectState result else s.streamSockState
      phase := .callback opType events
      called := s.called ++ [(callback, result)]
      continued }
  | (op, none) => { s.setOperation opType op with phase := .idle, continued }

/-- The second part of `HandleDataTranster()`, about sending. -/
def handleWriteEvent (s : StreamSocket H) (events : Events) (call : SystemResult) :
    StreamSocket H :=
  if (s.operation .kSend).operationOngoing ∧ events.hasWriteEvent ∧
      s.streamSockState = .kConnected then
    s.handle .kSend events call
  else { s with phase := .idle }

/-- `HandleDataTranster()`. A receive that is complete calls its handler first. -/
def handleDataTranster (s : StreamSocket H) (events : Events) (first second : SystemResult) :
    StreamSocket H :=
  if events.hasReadEvent ∧ (s.operation .kReceive).operationOngoing then
    let s := s.handle .kReceive events first
    -- else the event goes on when the handler has returned
    if s.phase = .idle then s.handleWriteEvent events second else s
  else s.handleWriteEvent events second

/-- `OnReactorEvent()` and `OnReactorEventImpl()`. Events that come in another state are ignored. -/
def onReactorEvent (s : StreamSocket H) (events : Events) (first second : SystemResult) :
    StreamSocket H :=
  if s.base.isClosed then s
  else
    match s.streamSockState with
    | .kConnecting => s.handle .kConnect events first
    | .kConnected => s.handleDataTranster events first second
    | .kDisconnected | .kDormant | .kConnectError => s

/-- The completion handler returns, and the operation in the reactor goes on. -/
def resume (s : StreamSocket H) (call : SystemResult) : StreamSocket H :=
  match s.phase with
  | .callback .kReceive events => s.handleWriteEvent events call
  | _ => { s with phase := .idle }

/-- `Open()`; the kernel hands out descriptor `fd`, and `registered` is the tag of the registration
with the reactor, which is made only without a reactor handle. -/
def openSocket (s : StreamSocket H) (fd : NativeHandle) (registered : Option HandlerTag) :
    StreamSocket H :=
  if !s.base.isClosed then s
  else
    let base := { s.base with socketHandle := fd }
    -- the reactor handle of an earlier connection is taken for a registration
    if !base.isReactorHandleValid then
      match registered with
      | some tag => { s with base := { base.setOpen with reactorHandle := tag } }
      | none => { s with base }
    else { s with base := base.setOpen }

/-- `Close()`, with `OnCloseEvent()`. The operations are not reset. `deregistered` is the success of
`Deregister()` and `inUse` the answer of `IsInUse()`. -/
def close (s : StreamSocket H) (deregistered inUse : Bool) : StreamSocket H :=
  if s.base.isClosed then s
  else
    let s := { s with streamSockState := .kDisconnected }
    if deregistered ∧ !inUse then { s with base := s.base.setClosed } else s

/-- `Connect()` on an open socket. -/
def connect (s : StreamSocket H) (ok : Bool) : StreamSocket H :=
  if !s.base.isClosed ∧ s.streamSockState ≠ .kConnected ∧ ok then
    { s with streamSockState := .kConnected }
  else s

/-- `SendSync()` and `SendSome()`, as far as the state is concerned: a send finds out that the
connection is gone. -/
def sendSync (s : StreamSocket H) (notConnected : Bool) : StreamSocket H :=
  if s.streamSockState = .kConnected ∧ !(s.operation .kSend).operationOngoing ∧ notConnected then
    { s with streamSockState := .kDormant }
  else s

end StreamSocket

/-- The steps of the users of the socket, the reactor and the executor. -/
inductive Action (H : Type)
  /-- An operation is started, from outside or from a completion handler. -/
  | start (a : Start H)
  /-- The socket's operation in the reactor is executed with some events, up to the call of a
  completion handler. -/
  | event (events : Events) (first second : SystemResult)
  /-- The completion handler returns. -/
  | resume (call : SystemResult)
  /-- The job at a position is executed. -/
  | runJob (i : ℕ)
  /-- `Open()` -/
  | openSocket (fd : NativeHandle) (registered : Option HandlerTag)
  /-- `Close()` -/
  | close (deregistered inUse : Bool)
  /-- `Connect()` -/
  | connect (ok : Bool)
  /-- `SendSync()` or `SendSome()` -/
  | sendSync (notConnected : Bool)

/-- The same step with another callback. -/
def Action.map {H K : Type} (f : H → K) : Action H → Action K
  | .start a => .start (a.map f)
  | .event events first second => .event events first second
  | .resume call => .resume call
  | .runJob i => .runJob i
  | .openSocket fd registered => .openSocket fd registered
  | .close deregistered inUse => .close deregistered inUse
  | .connect ok => .connect ok
  | .sendSync notConnected => .sendSync notConnected

/-- The step labelled by an action, if it is enabled. -/
def StreamSocket.step {H : Type} (s : StreamSocket H) : Action H → Option (StreamSocket H)
  | .start a => some (s.start a)
  | .event events first second =>
    if s.phase = .idle then some (s.onReactorEvent events first second) else none
  | .resume call => if s.phase = .idle then none else some (s.resume call)
  | .runJob i => (s.jobs[i]?).map (s.runJob i)
  | .openSocket fd registered => some (s.openSocket fd registered)
  | .close deregistered inUse => some (s.close deregistered inUse)
  | .connect ok => some (s.connect ok)
  | .sendSync notConnected => some (s.sendSync notConnected)

/-! ## What an attempt does -/

namespace AsyncOperation

variable {H : Type} (op : AsyncOperation H) (opType : OperationType) (view : BufferView)
  (isExhaustive : Bool) (call : SystemResult)

variable {op' : AsyncOperation H}

/-- An attempt leaves the operation as it is, or is complete and assigns the result. What it does is
the same for all operations that are ongoing, and for all that are not. -/
theorem doPerform_congr (h : op'.operationOngoing = op.operationOngoing)
    (opContext : OperationContext) :
    (∃ n, op.doPerform opType opContext view isExhaustive call = (op, .kAsyncNeeded, n) ∧
      op'.doPerform opType opContext view isExhaustive call = (op', .kAsyncNeeded, n)) ∨
    ∃ result n,
      op.doPerform opType opContext view isExhaustive call =
        (op.setResult result, .kComplete, n) ∧
      op'.doPerform opType opContext view isExhaustive call =
        (op'.setResult result, .kComplete, n) := by
  have hconnect : (op.doConnect opContext call = (op, .kAsyncNeeded) ∧
      op'.doConnect opContext call = (op', .kAsyncNeeded)) ∨
      ∃ result, op.doConnect opContext call = (op.setResult result, .kComplete) ∧
        op'.doConnect opContext call = (op'.setResult result, .kComplete) := by
    cases opContext with
    | kInitiation =>
      rcases hresult : call.result with errno | value
      · cases hbusy : isConnectInProgress errno with
        | true => exact .inl (by simp [doConnect, hresult, hbusy])
        | false => exact .inr ⟨.error (.system errno), by simp [doConnect, hresult, hbusy]⟩
      · exact .inr ⟨.ok 0, by simp [doConnect, hresult]⟩
    | kContinuation =>
      rcases hresult : call.result with errno | sockError
      · exact .inr ⟨.error (.system errno), by simp [doConnect, hresult]⟩
      · cases hbusy : isConnectInProgress sockError with
        | true => exact .inl (by simp [doConnect, hresult, hbusy])
        | false =>
          exact .inr ⟨if sockError ≠ 0 then .error (.system call.errno) else .ok 0,
            by simp [doConnect, hresult, hbusy]⟩
  simp only [doPerform, h]
  -- the conditions of the code, in its order; both operations take the same branch
  by_cases hrefused : opContext = .kInitiation ∧ op.operationOngoing = true
  · simp only [if_pos hrefused]
    exact .inr ⟨_, 0, rfl, rfl⟩
  by_cases hop : opType = .kConnect
  · -- a connect has its own system calls
    simp only [if_neg hrefused, if_pos hop]
    rcases hconnect with ⟨heq, heq'⟩ | ⟨result, heq, heq'⟩
    · exact .inl ⟨0, by rw [heq], by rw [heq']⟩
    · exact .inr ⟨result, 0, by rw [heq], by rw [heq']⟩
  simp only [if_neg hrefused, if_neg hop]
  rcases call.result with errno | bytes
  · simp only
    split_ifs
    · exact .inr ⟨_, 0, rfl, rfl⟩
    · exact .inl ⟨0, rfl, rfl⟩
    · exact .inr ⟨_, 0, rfl, rfl⟩
  · simp only
    split_ifs
    · exact .inr ⟨_, 0, rfl, rfl⟩
    · exact .inr ⟨_, bytes, rfl, rfl⟩
    · exact .inr ⟨_, bytes, rfl, rfl⟩
    · exact .inl ⟨bytes, rfl, rfl⟩
    · exact .inr ⟨_, bytes, rfl, rfl⟩

/-- A speculative start of an operation that is ongoing is refused. -/
theorem performInitiation_of_ongoing (h : op.operationOngoing = true) (userCallback : H) :
    op.performInitiation opType true isExhaustive view userCallback call =
      (op.setResult (.error .asyncOperationInProgress),
        some (some userCallback, .error .asyncOperationInProgress)) := by
  simp [performInitiation, doPerform, h, setResult, Stored.assign]

/-- An initiation stores the callback, or reports a result that it has assigned. -/
theorem performInitiation_congr (h : op'.operationOngoing = op.operationOngoing)
    (allowSpeculative : Bool) (userCallback : H) :
    (∃ n,
      op.performInitiation opType allowSpeculative isExhaustive view userCallback call =
        (op.onInitiation userCallback view isExhaustive n, none) ∧
      op'.performInitiation opType allowSpeculative isExhaustive view userCallback call =
        (op'.onInitiation userCallback view isExhaustive n, none)) ∨
    ∃ result,
      op.performInitiation opType allowSpeculative isExhaustive view userCallback call =
        (op.setResult result, some (some userCallback, result)) ∧
      op'.performInitiation opType allowSpeculative isExhaustive view userCallback call =
        (op'.setResult result, some (some userCallback, result)) := by
  cases allowSpeculative with
  | false => exact .inl ⟨0, rfl, rfl⟩
  | true =>
    rcases op.doPerform_congr opType view isExhaustive call h .kInitiation with
      ⟨n, heq, heq'⟩ | ⟨result, n, heq, heq'⟩
    · exact .inl ⟨n, by simp [performInitiation, heq], by simp [performInitiation, heq']⟩
    · refine .inr ⟨result, ?_, ?_⟩
      · simp [performInitiation, heq, setResult, Stored.assign]
      · simp [performInitiation, heq', setResult, Stored.assign]

/-- A continuation advances the view, or ends the operation and reports to its handler. It does not
read the result. -/
theorem performContinuation_congr (result' : Stored CompletionResult) :
    (∃ n, op.performContinuation opType call = (op.onContinuation n, none) ∧
      { op with completionResult := result' }.performContinuation opType call =
        ({ op with completionResult := result' }.onContinuation n, none)) ∨
    ∃ result,
      op.performContinuation opType call =
        ({ op.setResult result with operationOngoing := false },
          some (op.completetionHandler.value, result)) ∧
      { op with completionResult := result' }.performContinuation opType call =
        ({ { op with completionResult := result' }.setResult result with
            operationOngoing := false },
          some (op.completetionHandler.value, result)) := by
  have hongoing : { op with completionResult := result' }.operationOngoing =
      op.operationOngoing := rfl
  rcases doPerform_congr op opType op.bufferView op.isExhaustive call hongoing .kContinuation with
    ⟨n, heq, heq'⟩ | ⟨result, n, heq, heq'⟩
  · exact .inl ⟨n, by simp [performContinuation, heq], by simp [performContinuation, heq']⟩
  · refine .inr ⟨result, ?_, ?_⟩
    · simp [performContinuation, heq, setResult, Stored.assign]
    · simp [performContinuation, heq', setResult, Stored.assign]

end AsyncOperation

namespace StreamSocket

variable {H : Type} {s t : StreamSocket H} {a : Start H}

/-- The socket after a start that is not complete at once. -/
def started (s : StreamSocket H) (a : Start H) (n : ℕ) : StreamSocket H :=
  { s.setOperation a.opType
      ((s.operation a.opType).onInitiation a.callback a.view a.isExhaustive n) with
    streamSockState := if a.opType = .kConnect then .kConnecting else s.streamSockState }

/-- The socket after a start that is refused or complete at once. -/
def answered (s : StreamSocket H) (a : Start H) (result : CompletionResult) : StreamSocket H :=
  { s.setOperation a.opType ((s.operation a.opType).setResult result) with
    jobs := s.jobs ++ [⟨a.opType, some a.callback, result⟩] }

@[simp] theorem started_operation (s : StreamSocket H) (a : Start H) (n : ℕ) :
    (s.started a n).operation = Function.update s.operation a.opType
      ((s.operation a.opType).onInitiation a.callback a.view a.isExhaustive n) := rfl

@[simp] theorem answered_operation (s : StreamSocket H) (a : Start H) (result : CompletionResult) :
    (s.answered a result).operation =
      Function.update s.operation a.opType ((s.operation a.opType).setResult result) := rfl

/-- A start that is refused or complete at once posts a job; else the operation is ongoing. Which of
them is the same for all sockets whose operation is ongoing, and for all whose operation is not. -/
theorem start_congr (h : (t.operation a.opType).operationOngoing =
      (s.operation a.opType).operationOngoing) :
    (∃ n, s.start a = s.started a n ∧ t.start a = t.started a n) ∨
      ∃ result, s.start a = s.answered a result ∧ t.start a = t.answered a result := by
  rcases (s.operation a.opType).performInitiation_congr a.opType a.view a.isExhaustive a.call h
    a.allowSpeculative a.callback with ⟨n, heq, heq'⟩ | ⟨result, heq, heq'⟩
  · exact .inl ⟨n, by simp only [start, doStart, heq, started],
      by simp only [start, doStart, heq', started]⟩
  · exact .inr ⟨result, by simp only [start, doStart, heq, answered],
      by simp only [start, doStart, heq', answered]⟩

theorem start_cases (s : StreamSocket H) (a : Start H) :
    (∃ n, s.start a = s.started a n) ∨ ∃ result, s.start a = s.answered a result := by
  rcases start_congr (s := s) (t := s) (a := a) rfl with ⟨n, heq, -⟩ | ⟨result, heq, -⟩
  · exact .inl ⟨n, heq⟩
  · exact .inr ⟨result, heq⟩

/-- The socket after an event that does not complete an operation. -/
def continuedBy (s : StreamSocket H) (opType : OperationType) (n : ℕ) : StreamSocket H :=
  { s.setOperation opType ((s.operation opType).onContinuation n) with
    phase := .idle
    continued := s.continued ++ [(s.operation opType).completetionHandler.value] }

/-- The socket after an event that completes an operation. -/
def completedBy (s : StreamSocket H) (opType : OperationType) (events : Events)
    (result : CompletionResult) : StreamSocket H :=
  { s.setOperation opType { (s.operation opType).setResult result with
      operationOngoing := false } with
    streamSockState := if opType = .kConnect then connectState result else s.streamSockState
    phase := .callback opType events
    called := s.called ++ [((s.operation opType).completetionHandler.value, result)]
    continued := s.continued ++ [(s.operation opType).completetionHandler.value] }

/-- An event continues an operation, or ends it and calls its handler. Which of them does not depend
on the result that the operation holds. -/
theorem handle_congr (opType : OperationType) {result' : Stored CompletionResult}
    (h : t.operation opType = { s.operation opType with completionResult := result' })
    (events : Events) (call : SystemResult) :
    (∃ n, s.handle opType events call = s.continuedBy opType n ∧
      t.handle opType events call = t.continuedBy opType n) ∨
    ∃ result, s.handle opType events call = s.completedBy opType events result ∧
      t.handle opType events call = t.completedBy opType events result := by
  rcases (s.operation opType).performContinuation_congr opType call result' with
    ⟨n, heq, heq'⟩ | ⟨result, heq, heq'⟩
  · exact .inl ⟨n, by simp only [handle, heq, continuedBy],
      by simp only [handle, h, heq', continuedBy]⟩
  · exact .inr ⟨result, by simp only [handle, heq, completedBy],
      by simp only [handle, h, heq', completedBy]⟩

theorem handle_cases (s : StreamSocket H) (opType : OperationType) (events : Events)
    (call : SystemResult) :
    (∃ n, s.handle opType events call = s.continuedBy opType n) ∨
      ∃ result, s.handle opType events call = s.completedBy opType events result := by
  rcases handle_congr (s := s) (t := s) opType rfl events call with
    ⟨n, heq, -⟩ | ⟨result, heq, -⟩
  · exact .inl ⟨n, heq⟩
  · exact .inr ⟨result, heq⟩

/-- An event continues the operation that it is handed to. -/
theorem handle_continued (s : StreamSocket H) (opType : OperationType) (events : Events)
    (call : SystemResult) : (s.handle opType events call).continued =
      s.continued ++ [(s.operation opType).completetionHandler.value] := by
  rcases s.handle_cases opType events call with ⟨n, heq⟩ | ⟨result, heq⟩
  · rw [heq]
    rfl
  · rw [heq]
    rfl

section Continuations

-- what is kept when an operation is continued that is ongoing, or a connect that is awaited
variable {R : StreamSocket H → Prop} (hidle : ∀ s, R s → R { s with phase := .idle })
  (hhandle : ∀ s opType events call, R s → ((s.operation opType).operationOngoing = true ∨
    opType = .kConnect ∧ s.streamSockState = .kConnecting) → R (s.handle opType events call))
include hidle hhandle

/-- It is kept by the second part of an event. -/
theorem handleWriteEvent_of_handle (hs : R s) (events : Events) (call : SystemResult) :
    R (s.handleWriteEvent events call) := by
  simp only [handleWriteEvent]
  split
  · rename_i h
    exact hhandle s .kSend events call hs (.inl h.1)
  · exact hidle s hs

/-- It is kept by an event. -/
theorem onReactorEvent_of_handle (hs : R s) (events : Events) (first second : SystemResult) :
    R (s.onReactorEvent events first second) := by
  simp only [onReactorEvent]
  split
  · exact hs
  cases hstate : s.streamSockState with
  | kConnecting => exact hhandle s .kConnect events first hs (.inr ⟨rfl, hstate⟩)
  | kConnected =>
    simp only [handleDataTranster]
    split
    · rename_i h
      have hreceive := hhandle s .kReceive events first hs (.inl h.2)
      split
      · exact handleWriteEvent_of_handle hidle hhandle hreceive events second
      · exact hreceive
    · exact handleWriteEvent_of_handle hidle hhandle hs events second
  | kDisconnected => exact hs
  | kDormant => exact hs
  | kConnectError => exact hs

/-- It is kept when a completion handler returns. -/
theorem resume_of_handle (hs : R s) (call : SystemResult) : R (s.resume call) := by
  simp only [resume]
  split
  · exact handleWriteEvent_of_handle hidle hhandle hs _ call
  · exact hidle s hs

end Continuations

section Transfers

-- what is kept when a send or a receive is continued
variable {R : StreamSocket H → Prop} (hidle : ∀ s, R s → R { s with phase := .idle })
  (hhandle : ∀ s opType events call, R s → opType ≠ .kConnect → R (s.handle opType events call))
include hidle hhandle

theorem handleWriteEvent_of_transfer (hs : R s) (events : Events) (call : SystemResult) :
    R (s.handleWriteEvent events call) := by
  simp only [handleWriteEvent]
  split
  · exact hhandle s .kSend events call hs (by decide)
  · exact hidle s hs

/-- It is kept by an event, if the socket is not connecting. -/
theorem onReactorEvent_of_transfer (hs : R s) (hstate : s.streamSockState ≠ .kConnecting)
    (events : Events) (first second : SystemResult) :
    R (s.onReactorEvent events first second) := by
  simp only [onReactorEvent]
  split
  · exact hs
  split
  · rename_i hconnecting
    exact absurd hconnecting hstate
  · simp only [handleDataTranster]
    split
    · have hreceive := hhandle s .kReceive events first hs (by decide)
      split
      · exact handleWriteEvent_of_transfer hidle hhandle hreceive events second
      · exact hreceive
    · exact handleWriteEvent_of_transfer hidle hhandle hs events second
  all_goals exact hs

/-- It is kept when a completion handler returns. -/
theorem resume_of_transfer (hs : R s) (call : SystemResult) : R (s.resume call) := by
  simp only [resume]
  split
  · exact handleWriteEvent_of_transfer hidle hhandle hs _ call
  · exact hidle s hs

end Transfers

theorem openSocket_cases (s : StreamSocket H) (fd : NativeHandle)
    (registered : Option HandlerTag) : ∃ base, s.openSocket fd registered = { s with base } := by
  simp only [openSocket]
  split
  · exact ⟨s.base, rfl⟩
  split
  · split
    · exact ⟨_, rfl⟩
    · exact ⟨_, rfl⟩
  · exact ⟨_, rfl⟩

/-- `Close()` of an open socket resets the state, and nothing else of the connection. -/
theorem close_cases (s : StreamSocket H) (deregistered inUse : Bool) :
    (s.base.isClosed = true ∧ s.close deregistered inUse = s) ∨
    s.base.isClosed = false ∧ ∃ base, s.close deregistered inUse =
      { s with base, streamSockState := .kDisconnected } := by
  simp only [close]
  split
  · rename_i hclosed
    exact .inl ⟨hclosed, rfl⟩
  · rename_i hopen
    refine .inr ⟨Bool.eq_false_iff.mpr hopen, ?_⟩
    split
    · exact ⟨_, rfl⟩
    · exact ⟨_, rfl⟩

theorem connect_cases (s : StreamSocket H) (ok : Bool) :
    s.connect ok = s ∨ s.connect ok = { s with streamSockState := .kConnected } := by
  simp only [connect]
  split
  · exact .inr rfl
  · exact .inl rfl

theorem sendSync_cases (s : StreamSocket H) (notConnected : Bool) :
    s.sendSync notConnected = s ∨
      s.sendSync notConnected = { s with streamSockState := .kDormant } := by
  simp only [sendSync]
  split
  · exact .inr rfl
  · exact .inl rfl

/-- A speculative start of a kind that is ongoing is refused. -/
theorem doStart_of_ongoing {opType : OperationType}
    (h : (s.operation opType).operationOngoing = true) (isExhaustive : Bool) (view : BufferView)
    (callback : H) (call : SystemResult) :
    s.doStart opType true isExhaustive view callback call =
      { s.setOperation opType ((s.operation opType).setResult
          (.error .asyncOperationInProgress)) with
        jobs := s.jobs ++ [⟨opType, some callback, .error .asyncOperationInProgress⟩] } := by
  simp only [doStart, AsyncOperation.performInitiation_of_ongoing _ _ _ _ _ h]

/-- A start concerns the operation of its kind only. -/
theorem start_operation_of_ne (s : StreamSocket H) {opType : OperationType}
    (hne : a.opType ≠ opType) : (s.start a).operation opType = s.operation opType := by
  rcases s.start_cases a with ⟨n, heq⟩ | ⟨result, heq⟩
  · rw [heq]
    exact Function.update_of_ne hne.symm ..
  · rw [heq]
    exact Function.update_of_ne hne.symm ..

end StreamSocket

/-! ## Overlapping operations -/

section Overlapping

variable {H : Type} {s t : StreamSocket H} {opType : OperationType}

/-- From `s` to `t` the ongoing operation that a start meets is undisturbed, and the callback of the
start is to be called once, with the refusal. -/
structure Undisturbed (opType : OperationType) (callback : H) (s t : StreamSocket H) : Prop where
  ongoing : (t.operation opType).operationOngoing = true
  completetionHandler : (t.operation opType).completetionHandler =
    (s.operation opType).completetionHandler
  bufferView : (t.operation opType).bufferView = (s.operation opType).bufferView
  isExhaustive : (t.operation opType).isExhaustive = (s.operation opType).isExhaustive
  jobs : t.jobs = s.jobs ++ [⟨opType, some callback, .error .asyncOperationInProgress⟩]

/-- An operation that is ongoing is undisturbed by a start of the same kind, and the start refused,
if and only if the start is speculative. -/
theorem overlapping_start_iff (hongoing : (s.operation opType).operationOngoing = true)
    (allowSpeculative isExhaustive : Bool) (view : BufferView) (callback : H)
    (call : SystemResult) :
    Undisturbed opType callback s
        (s.doStart opType allowSpeculative isExhaustive view callback call) ↔
      allowSpeculative = true := by
  cases allowSpeculative with
  | true =>
    refine iff_of_true ?_ rfl
    rw [StreamSocket.doStart_of_ongoing hongoing]
    have hop : (s.setOperation opType ((s.operation opType).setResult
        (.error .asyncOperationInProgress))).operation opType =
        (s.operation opType).setResult (.error .asyncOperationInProgress) :=
      Function.update_self ..
    exact ⟨by rw [hop]; exact hongoing, by rw [hop]; rfl, by rw [hop]; rfl, by rw [hop]; rfl, rfl⟩
  | false =>
    -- the operation is overwritten, and the callback is not answered
    refine iff_of_false (fun h => ?_) (by simp)
    have hlength := congrArg List.length h.jobs
    simp [StreamSocket.doStart, AsyncOperation.performInitiation, StreamSocket.setOperation]
      at hlength

/-- A receive is pending on a socket that is not readable when the next one is started. -/
def pendingReceive : StreamSocket ℕ :=
  StreamSocket.start {} ⟨.receive .receiveAsync, ⟨100, 8⟩, 1, false, ⟨.ok 0, 0⟩⟩

/-- The next receive is refused if it is tried at once. -/
theorem overlapping_start_try :
    (pendingReceive.operation .kReceive).operationOngoing = true ∧
      Undisturbed .kReceive 2 pendingReceive
        (pendingReceive.start ⟨.receive .tryReceiveAsync, ⟨200, 8⟩, 2, false, ⟨.ok 0, 0⟩⟩) :=
  ⟨rfl, (overlapping_start_iff rfl true true ⟨200, 8⟩ 2 ⟨.ok 0, 0⟩).mpr rfl⟩

/-- The next receive takes the place of the first if it is not tried at once. -/
theorem not_undisturbed_receive :
    (pendingReceive.operation .kReceive).operationOngoing = true ∧
      ¬ Undisturbed .kReceive 2 pendingReceive
        (pendingReceive.start ⟨.receive .receiveAsync, ⟨200, 8⟩, 2, false, ⟨.ok 0, 0⟩⟩) := by
  refine ⟨rfl, fun h => ?_⟩
  have hhandler := congrArg Stored.value h.completetionHandler
  cases hhandler

end Overlapping

/-! ## Completion handlers that start operations -/

section Running

variable {H : Type}

/-- How often the completion handler and the result of an operation were assigned. -/
def AsyncOperation.writes (op : AsyncOperation H) : ℕ :=
  op.completetionHandler.writes + op.completionResult.writes

/-- Every start of a kind assigns the handler or the result of its operation. -/
theorem StreamSocket.writes_start (s : StreamSocket H) (a : Start H) :
    ((s.start a).operation a.opType).writes = (s.operation a.opType).writes + 1 := by
  rcases s.start_cases a with ⟨n, heq⟩ | ⟨result, heq⟩
  · rw [heq]
    simp only [started_operation, Function.update_self, AsyncOperation.writes,
      AsyncOperation.onInitiation, Stored.assign]
    omega
  · rw [heq]
    simp only [answered_operation, Function.update_self, AsyncOperation.writes,
      AsyncOperation.setResult, Stored.assign]
    omega

/-- The number of assignments never falls. -/
theorem StreamSocket.writes_starts (starts : List (Start H)) (s : StreamSocket H)
    (opType : OperationType) :
    (s.operation opType).writes ≤
      ((starts.foldl StreamSocket.start s).operation opType).writes := by
  induction starts generalizing s with
  | nil => exact le_rfl
  | cons a starts ih =>
    refine le_trans ?_ (ih (s.start a))
    by_cases heq : a.opType = opType
    · subst heq
      rw [writes_start]
      exact Nat.le_succ _
    · rw [start_operation_of_ne s heq]

/-- While the completion handler runs that an event has called, it and the result that it is given
are not assigned if and only if it starts no operation of the same kind. -/
theorem running_callback_untouched_iff (s : StreamSocket H) (opType : OperationType)
    (events : Events) (call : SystemResult) (starts : List (Start H)) :
    ((starts.foldl StreamSocket.start (s.handle opType events call)).operation
          opType).completetionHandler =
        ((s.handle opType events call).operation opType).completetionHandler ∧
      ((starts.foldl StreamSocket.start (s.handle opType events call)).operation
          opType).completionResult =
        ((s.handle opType events call).operation opType).completionResult ↔
      ∀ a ∈ starts, a.opType ≠ opType := by
  generalize s.handle opType events call = t
  induction starts generalizing t with
  | nil => simp
  | cons a starts ih =>
    by_cases heq : a.opType = opType
    · -- the first assignment is counted ever after
      refine iff_of_false ?_ (by simp [heq])
      rintro ⟨hhandler, hresult⟩
      subst heq
      have hfirst := t.writes_start a
      have hrest := StreamSocket.writes_starts starts (t.start a) a.opType
      have hwrites : ((starts.foldl StreamSocket.start (t.start a)).operation a.opType).writes =
          (t.operation a.opType).writes := by
        simp only [List.foldl_cons] at hhandler hresult
        rw [AsyncOperation.writes, hhandler, hresult, AsyncOperation.writes]
      omega
    · have hrest := ih (t.start a)
      rw [t.start_operation_of_ne heq] at hrest
      rw [List.foldl_cons, hrest]
      simp [heq]

/-- The handler of a receive starts the next one, as the reception loop of a connection does. -/
theorem not_running_callback_untouched :
    (pendingReceive.handle .kReceive .kRead ⟨.ok 8, 0⟩).phase = .callback .kReceive .kRead ∧
      ¬ (((pendingReceive.handle .kReceive .kRead ⟨.ok 8, 0⟩).start
            ⟨.receive .receiveAsync, ⟨200, 8⟩, 2, false, ⟨.ok 0, 0⟩⟩).operation
              .kReceive).completetionHandler =
        ((pendingReceive.handle .kReceive .kRead ⟨.ok 8, 0⟩).operation
          .kReceive).completetionHandler := by
  refine ⟨rfl, fun h => ?_⟩
  have hwrites := congrArg Stored.writes h
  cases hwrites

end Running

end Asrt.Socket.Async
