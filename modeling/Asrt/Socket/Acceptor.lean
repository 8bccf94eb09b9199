import Asrt.Socket.BasicSocket

/-!
# The acceptor

`BasicAcceptorSocket` (`socket/acceptor.hpp`, `impl/basic_acceptor_socket.ipp`) over its entry of
the reactor, together with the kernel's backlog of a listening socket that is monitored
edge-triggered, the reactor thread and the executor thread that runs the acceptor's operation.

The operation is cut where its thread gives up the socket's mutex: before `accept4()`, after it, and
while the completion handler runs. The client re-issues `AcceptAsync()` from its completion handler,
as `ServerInterface::WaitForClientConnections()` does; `AcceptAsync()` may also come from any other
thread at any time.

The mutex of the socket is that of its entry. A new peer is registered with the reactor, which locks
every entry for it. The operation has released the mutex by then, but an `AcceptAsync()` that tries
the accept at once has not: with the connection it waits for itself, and nobody gets the mutex any
more.
-/

namespace Asrt.Socket.Acceptor

open Reactor

/-- `AcceptorSocketState` -/
inductive AcceptorSocketState
  | kDisconnected
  | kBound
  | kListening
  | kAccepting
deriving DecidableEq, Repr

/-- What `accept4()` returns: a connection, `EAGAIN`, or another error, which may have used up a
connection (the pending error of an aborted connection) or not (no descriptor left). -/
inductive AcceptResult
  | connection
  | wouldBlock
  | error (consumed : Bool)
deriving DecidableEq, Repr

namespace AcceptResult

/-- `ErrorCode_Ns::IsBusy()` of the error, if any. -/
def isBusy : AcceptResult → Bool
  | wouldBlock => true
  | _ => false

/-- The number of connections that the call takes from the backlog. -/
def taken : AcceptResult → ℕ
  | connection => 1
  | wouldBlock => 0
  | error consumed => consumed.toNat

end AcceptResult

/-- Where the acceptor's operation is. -/
inductive Phase
  /-- It is not posted. -/
  | idle
  /-- It waits in the executor's queue. -/
  | queued
  /-- `HandleAysncAccept()` is about to call `accept4()`. -/
  | accepting
  /-- `accept4()` has returned and the mutex is not yet taken again. -/
  | accepted (result : AcceptResult)
  /-- The completion handler runs. -/
  | callback
  /-- `OnReactorEventImpl()` has returned to the operation. -/
  | returning
deriving DecidableEq, Repr

/-- The acceptor, its reactor and the kernel's side of the listening socket. -/
structure State where
  reactor : EpollReactor Unit
  /-- `reactor_handle_` -/
  reactorHandle : HandlerTag
  /-- `acceptor_sockstate_` -/
  acceptorSockstate : AcceptorSocketState := .kBound
  /-- `on_accept_complete_` is not empty. -/
  onAcceptComplete : Bool := false
  /-- `speculative_accept_` -/
  speculativeAccept : Bool := false
  /-- The connections that wait in the kernel. -/
  backlog : ℕ := 0
  /-- There is an edge that `epoll_wait()` has not returned. -/
  edge : Bool := false
  /-- The reactor thread holds an event of the socket that it has not handled. -/
  fetched : Bool := false
  phase : Phase := .idle
  /-- The completion handlers posted for immediate completion. -/
  immediateJobs : ℕ := 0
  /-- An `AcceptAsync()` waits for the mutex of the acceptor's entry, which it holds itself. -/
  blocked : Bool := false

/-- The steps of the clients, the kernel, the reactor thread and the executor threads. `listens` is
the outcome of `listen()` and `result` that of `accept4()`, for calls that get that far; `registers`
says that the peer has to be registered with the reactor, since it has one and no entry yet. -/
inductive Action
  /-- `Listen()` -/
  | listen (listens : Bool)
  /-- `AcceptAsync()` from outside the completion handler. -/
  | acceptAsync (listens : Bool) (result : AcceptResult) (registers : Bool)
  /-- A connection arrives. -/
  | arrive
  /-- `epoll_wait()` returns the edge. -/
  | wait
  /-- `HandleSingleEvent()` -/
  | handle
  /-- An executor thread starts the operation. -/
  | begin
  /-- `HandleAysncAccept()` calls `accept4()`. -/
  | accept (result : AcceptResult)
  /-- `HandleAysncAccept()` has the mutex again. -/
  | resume
  /-- The completion handler calls `AcceptAsync()` and returns. -/
  | reissue (listens : Bool) (result : AcceptResult) (registers : Bool)
  /-- The operation ends. -/
  | finish
  /-- A completion handler posted for immediate completion calls `AcceptAsync()` and returns. -/
  | immediate (listens : Bool) (result : AcceptResult) (registers : Bool)
  /-- `Close()` -/
  | close
deriving DecidableEq, Repr

/-- `DoAccept()`: the backlog after `accept4()` with the given result, which the kernel gives only
if it agrees with the backlog. -/
def doAccept (backlog : ℕ) (result : AcceptResult) : Option ℕ :=
  if result.taken ≤ backlog ∧ (result.isBusy → backlog = 0) then some (backlog - result.taken)
  else none

namespace State

/-- `Listen()` and `DoListen()` -/
def listen (σ : State) (listens : Bool) : State :=
  if σ.acceptorSockstate = .kBound ∧ listens then { σ with acceptorSockstate := .kListening }
  else σ

/-- The part of `DoAsyncAccept()` that leaves the accept to the reactor. -/
def startAsyncAccept (σ : State) : State :=
  { σ with
    onAcceptComplete := true
    reactor := σ.reactor.onStartOfOperation σ.reactorHandle .kRead true }

/-- `DoAsyncAccept()`. After an event that was ignored the accept is tried at once, and its handler
is posted if it did not find the backlog empty; a connection whose peer has to be registered is the
last thing that the call does. -/
def doAsyncAccept (σ : State) (result : AcceptResult) (registers : Bool) : Option State :=
  if σ.speculativeAccept then
    (doAccept σ.backlog result).map fun backlog =>
      if result = .connection ∧ registers then { σ with backlog, blocked := true }
      else
        let σ := { σ with backlog, speculativeAccept := false }
        if result.isBusy then σ.startAsyncAccept
        else { σ with immediateJobs := σ.immediateJobs + 1 }
  else some σ.startAsyncAccept

/-- `AcceptAsync()`. The request is refused while another one is pending and on a socket that is not
bound. -/
def acceptAsync (σ : State) (listens : Bool) (result : AcceptResult) (registers : Bool) :
    Option State :=
  match σ.acceptorSockstate with
  | .kListening => { σ with acceptorSockstate := .kAccepting }.doAsyncAccept result registers
  | .kBound =>
    if listens then { σ with acceptorSockstate := .kAccepting }.doAsyncAccept result registers
    else some σ
  | .kAccepting => some σ
  | .kDisconnected => some σ

/-- `HandleSingleEvent()` on the event of a non-empty backlog. -/
def handleEvent (σ : State) : State :=
  let handled := σ.reactor.handleSingleEvent ⟨EPOLLIN, σ.reactorHandle⟩ []
  { σ with
    reactor := handled.1
    fetched := false
    phase := if handled.2 = [] then σ.phase else .queued }

/-- `OnReactorEventImpl()` up to the call of `accept4()`. -/
def onReactorEventImpl (σ : State) (events : Events) : State :=
  if σ.acceptorSockstate = .kAccepting then { σ with phase := .accepting }
  else { σ with
    speculativeAccept := true
    reactor := σ.reactor.onEventIgnored σ.reactorHandle events
    phase := .returning }

/-- The acceptor's operation, up to the point where its mutex is released. -/
def beginOperation (σ : State) : State :=
  match σ.reactor.beginOperation σ.reactorHandle with
  | (reactor, some (_, events)) => { σ with reactor }.onReactorEventImpl events
  | (reactor, none) => { σ with reactor, phase := .idle }

/-- `HandleAysncAccept()` once it has the mutex again. Calling an empty completion handler ends the
program. -/
def resumeAccept (σ : State) (result : AcceptResult) : Option State :=
  if σ.acceptorSockstate = .kDisconnected then some { σ with phase := .returning }
  else if result.isBusy then
    -- a false wake-up: the request stays pending
    some { σ with
      reactor := σ.reactor.onStartOfOperation σ.reactorHandle .kRead true
      phase := .returning }
  else if σ.onAcceptComplete then
    some { σ with acceptorSockstate := .kListening, onAcceptComplete := false, phase := .callback }
  else none

/-- The step labelled by an action, if it is enabled and the mutex of the acceptor's entry can be
had for it. -/
def perform (σ : State) : Action → Option State
  | .listen listens => some (σ.listen listens)
  | .acceptAsync listens result registers => σ.acceptAsync listens result registers
  | .arrive =>
    -- connections arrive at a listening socket only; several may share one edge
    if σ.acceptorSockstate = .kListening ∨ σ.acceptorSockstate = .kAccepting then
      some { σ with backlog := σ.backlog + 1, edge := true }
    else none
  | .wait => if σ.edge ∧ !σ.fetched then some { σ with edge := false, fetched := true } else none
  | .handle => if σ.fetched then some σ.handleEvent else none
  | .begin => if σ.phase = .queued then some σ.beginOperation else none
  | .accept result =>
    if σ.phase = .accepting then
      (doAccept σ.backlog result).map fun backlog =>
        { σ with backlog, phase := .accepted result }
    else none
  | .resume =>
    match σ.phase with
    | .accepted result => σ.resumeAccept result
    | _ => none
  | .reissue listens result registers =>
    if σ.phase = .callback then
      { σ with phase := .returning }.acceptAsync listens result registers
    else none
  | .finish =>
    if σ.phase = .returning then
      some { σ with reactor := σ.reactor.finishOperation σ.reactorHandle, phase := .idle }
    else none
  | .immediate listens result registers =>
    if 0 < σ.immediateJobs then
      { σ with immediateJobs := σ.immediateJobs - 1 }.acceptAsync listens result registers
    else none
  | .close =>
    some { σ with
      acceptorSockstate := .kDisconnected
      reactor := (σ.reactor.derigsterImpl σ.reactorHandle true).1 }

/-- The step labelled by an action. Only the kernel and `epoll_wait()` do without the mutex. -/
def step (σ : State) (a : Action) : Option State :=
  if σ.blocked ∧ a ≠ .arrive ∧ a ≠ .wait then none else σ.perform a

end State

/-- The acceptor as a machine: a bound socket that has just been registered with its reactor. -/
def machine : ToMathlib.Machine State Action where
  init σ := ∃ (r reactor : EpollReactor Unit) (fd : NativeHandle) (reactorHandle : HandlerTag),
    r.registerImpl .ioEvent fd kReadEdge () true = (reactor, .ok reactorHandle) ∧
      σ = { reactor, reactorHandle }
  step := State.step

/-- A connection is stuck: an accept is pending and the backlog is not empty, but nothing is under
way that would make the acceptor look at it. An event that the reactor thread holds counts for
nothing if it will never get the mutex. -/
def State.Stuck (σ : State) : Prop :=
  σ.acceptorSockstate = .kAccepting ∧ 0 < σ.backlog ∧ σ.edge = false ∧
    (σ.fetched = false ∨ σ.blocked = true) ∧ σ.phase = .idle

end Asrt.Socket.Acceptor
