import Asrt.Reactor.Basic
import Asrt.ToMathlib.Machine

/-!
# Sockets over one reactor

`BasicSocket` (`socket/basic_socket.hpp`) with a reactor: `Open()`, `Close()`, `Destroy()` and the
start of asynchronous operations, for any set of sockets over one reactor, together with the reactor
thread that handles epoll events and the executor threads that run the posted operations.

The handler that a socket registers captures the socket, so handlers are sockets here: an entry
whose handler is `k` was registered by socket `k`. The ghost field `registered` of a socket says
that its registration has not been given up; the code has no such flag and keeps the reactor handle
after a deregistration.
-/

namespace Asrt.Socket

open Reactor

/-- `kInvalidHandlerTag` -/
def kInvalidHandlerTag : HandlerTag := 2 ^ 32 - 1

/-- `BasicSocketState::kClosed` -/
def kClosed : BitVec 8 := 0

/-- `BasicSocketState::kOpen` -/
def kOpen : BitVec 8 := 1

/-- `EventType::kReadEdge` -/
def kReadEdge : Events := Events.ofMask (EPOLLIN ||| EPOLLET)

/-- `BasicSocket` -/
structure BasicSocket where
  /-- `basic_socket_state_` -/
  basicSocketState : BitVec 8 := kClosed
  /-- `socket_handle_` -/
  socketHandle : NativeHandle := kInvalidNativeHandle
  /-- `reactor_handle_` -/
  reactorHandle : HandlerTag := kInvalidHandlerTag
  /-- The object has been destroyed. -/
  destroyed : Bool := false
  /-- Ghost: the socket holds a registration with the reactor. -/
  registered : Bool := false
deriving DecidableEq, Repr

namespace BasicSocket

/-- `IsClosed()` -/
def isClosed (sock : BasicSocket) : Bool := sock.basicSocketState = kClosed

/-- `IsReactorHandleValid()` -/
def isReactorHandleValid (sock : BasicSocket) : Bool := sock.reactorHandle ≠ kInvalidHandlerTag

/-- `SetBasicSockState(kOpen)` -/
def setOpen (sock : BasicSocket) : BasicSocket :=
  { sock with basicSocketState := sock.basicSocketState ||| kOpen }

/-- A socket that was set open is not closed, whatever its other state bits. -/
theorem isClosed_setOpen (sock : BasicSocket) : sock.setOpen.isClosed = false := by
  have hne : sock.basicSocketState ||| kOpen ≠ kClosed := by
    intro h
    have hbit := congrArg (fun b => b.getLsbD 0) h
    simp [kOpen, kClosed] at hbit
  exact decide_eq_false hne

/-- `SetBasicSockState(kClosed)`, with the descriptor forgotten. -/
def setClosed (sock : BasicSocket) : BasicSocket :=
  { sock with basicSocketState := kClosed, socketHandle := kInvalidNativeHandle }

end BasicSocket

/-- The sockets, their reactor and the operations the reactor has handed to the executor. -/
structure State (K : Type) where
  reactor : EpollReactor K
  sockets : K → BasicSocket := fun _ => {}
  /-- The I/O operations queued with the executor. -/
  queued : List HandlerTag := []
  /-- The I/O operations whose handlers are executing. -/
  executing : List HandlerTag := []

/-- The steps of the clients, the kernel, the reactor thread and the executor threads. -/
inductive Action (K : Type)
  /-- `Open()`; the kernel hands out descriptor `fd`, and `resources` is the outcome of the epoll
  call. -/
  | openSocket (k : K) (fd : NativeHandle) (resources : Bool)
  /-- `Close()` -/
  | close (k : K)
  /-- The destructor, which calls `Destroy()`. -/
  | destroy (k : K)
  /-- The start of an asynchronous operation. -/
  | start (k : K) (opType : Events) (resources : Bool)
  /-- The reactor thread handles an event of the descriptor registered for a tag. -/
  | event (event : EpollEvent)
  /-- An executor thread takes the first queued operation, up to the call of its handler. -/
  | begin
  /-- A handler returns and its operation ends. -/
  | finish (tag : HandlerTag)
deriving DecidableEq, Repr

namespace State

variable {K : Type} [DecidableEq K]

/-- Replace the state of one socket. -/
def setSocket (σ : State K) (k : K) (sock : BasicSocket) : State K :=
  { σ with sockets := Function.update σ.sockets k sock }

/-- `DoOpenSocket()` and `AssignNativeHandle()` after `socket(2)` has returned `fd`: without a
reactor handle the socket is registered, and a failed registration closes the descriptor. -/
def doOpenSocket (σ : State K) (k : K) (fd : NativeHandle) (resources : Bool) : State K :=
  let sock := { σ.sockets k with socketHandle := fd }
  let reactor := { σ.reactor with kernel := σ.reactor.kernel.openFd fd }
  if !sock.isReactorHandleValid then
    match reactor.registerImpl .ioEvent fd kReadEdge k resources with
    | (reactor, .ok tag) =>
      { σ with reactor }.setSocket k
        { sock.setOpen with reactorHandle := tag, registered := true }
    | (reactor, .error _) =>
      { σ with reactor := { reactor with kernel := reactor.kernel.closeFd fd } }.setSocket k sock
  else { σ with reactor }.setSocket k sock.setOpen

/-- `Close()`. The socket counts as closed only if its entry is not in use any more. -/
def close (σ : State K) (k : K) : State K :=
  let sock := σ.sockets k
  if sock.isClosed then σ
  else
    match σ.reactor.derigsterImpl sock.reactorHandle true with
    | (reactor, .error _) => { σ with reactor }
    | (reactor, .ok ()) =>
      let sock := { sock with registered := false }
      { σ with reactor }.setSocket k
        (if !reactor.isInUseImpl sock.reactorHandle then sock.setClosed else sock)

/-- `Destroy()` -/
def destroy (σ : State K) (k : K) : State K :=
  let sock := { σ.sockets k with destroyed := true }
  if sock.isClosed then σ.setSocket k sock
  else { σ with reactor := (σ.reactor.derigsterImpl sock.reactorHandle true).1 }.setSocket k
    { sock with registered := false }

/-- The reactor thread handles one event; the operation it may queue goes to the executor. -/
def handleEvent (σ : State K) (event : EpollEvent) : State K :=
  let (reactor, ops) := σ.reactor.handleSingleEvent event []
  { σ with reactor, queued := σ.queued ++ if ops = [] then [] else [event.tag] }

/-- An executor thread runs a queued operation up to the call of the handler, or to its end if there
is nothing to call. -/
def beginOperation (σ : State K) (tag : HandlerTag) (rest : List HandlerTag) : State K :=
  match σ.reactor.beginOperation tag with
  | (reactor, some _) => { σ with reactor, queued := rest, executing := tag :: σ.executing }
  | (reactor, none) => { σ with reactor, queued := rest }

/-- The step labelled by an action, if it is enabled. Destroyed sockets are not used, and
`socket(2)` returns a descriptor that is not open. -/
def step (σ : State K) : Action K → Option (State K)
  | .openSocket k fd resources =>
    let sock := σ.sockets k
    if sock.destroyed ∨ σ.reactor.kernel.isOpen fd then none
    else if !sock.isClosed then some σ
    else some (σ.doOpenSocket k fd resources)
  | .close k => if (σ.sockets k).destroyed then none else some (σ.close k)
  | .destroy k => if (σ.sockets k).destroyed then none else some (σ.destroy k)
  | .start k opType resources =>
    let sock := σ.sockets k
    if sock.destroyed ∨ sock.isClosed then none
    else some { σ with
      reactor := σ.reactor.onStartOfOperation sock.reactorHandle opType resources }
  | .event event => if event.tag < σ.reactor.size then some (σ.handleEvent event) else none
  | .begin =>
    match σ.queued with
    | tag :: rest => some (σ.beginOperation tag rest)
    | [] => none
  | .finish tag =>
    if tag ∈ σ.executing then
      some { σ with
        reactor := σ.reactor.finishOperation tag
        executing := σ.executing.erase tag }
    else none

end State

/-- The sockets as a machine: no socket has been opened, and the reactor's table has any size that
fits the 16-bit `handler_count` of its constructor. -/
def machine (K : Type) [DecidableEq K] : ToMathlib.Machine (State K) (Action K) where
  init σ := ∃ size < 2 ^ 16, ∃ isOpen, σ = { reactor := { size, kernel := { isOpen } } }
  step := State.step

end Asrt.Socket
