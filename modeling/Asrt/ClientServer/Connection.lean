import Asrt.ClientServer.Reception
import Mathlib.Control.Monad.Basic

/-!
# Connections

`Connection` (`client_server/connection.hpp`), for the server and for the client: the handshake, the
reception of messages, and the sending of messages through `outbox_` or directly. A connection is
used for one handshake.

The completion handlers of the receives form one sequence of calls, `stage`. `Send()`, `SendSync()`
and `Close()` are called by anybody at any time; each call goes on in steps of its own, which
interleave with everything else. The calls that the strand serializes are taken in any order here,
which allows more than the strand does.

A message is given by the bytes of its `DataView()`. A call of `DoSendNextMessage()` may find
`outbox_` empty, when another thread has cleared it; the bytes that it then sends are an argument.

`Connection.server` and `Connection.client` are the machines of the two ends. The kernel has a send
buffer of some capacity, and takes a buffer as a whole that fits into what is left of it.
-/

namespace Asrt.ClientServer

open ToMathlib Socket.ByteStream

/-- `internal::ComputeKey()`, for a `size_t` of 64 bits. -/
def computeKey (seed : BitVec (8 * 8)) : BitVec (8 * 8) :=
  let temp := seed ^^^ 0xDEADBEEF
  let temp := (temp &&& 0xF0F0F0F0) >>> 4 ||| (temp &&& 0x0F0F0F0F) <<< 4
  temp ^^^ 0xFACE6666

/-- `Identity` -/
inductive Identity
  | kServer
  | kClient
deriving DecidableEq, Repr

/-- Where the sequence of completion handlers is. -/
inductive Stage
  /-- `InitiateHandshake()` was not called yet. -/
  | idle
  /-- The receive of `ReadSeed()`. -/
  | readSeed (operation : ReceiveOperation)
  /-- The receive of `ReadKey()`. -/
  | readKey (operation : ReceiveOperation)
  /-- The connection is validated, and `SendBackloggedMessages()` is next. -/
  | sendBacklog
  /-- `OnClientValidated()` is next. -/
  | notifyOwner
  /-- `ReceiveMessageHeader()` is next. -/
  | startReception
  /-- The reception loop. -/
  | reception (r : Reception)
  /-- The handshake has failed, or a call has not returned. -/
  | ended
deriving Repr

/-- The calls by others, and what is left of them to do. -/
inductive Call
  /-- `DoSendMessage2()` -/
  | doSendMessage2 (message : List UInt8)
  /-- `DoSendNextMessage()` -/
  | doSendNextMessage
  /-- The completion handler of `SendAsync()`. -/
  | sendCompleted (result : Except SockErrorCode Unit)
  /-- `SendSync()` -/
  | sendSync (message : List UInt8)
  /-- The rest of a `SendSync()` that has found the connection not validated. -/
  | saveMessage (message : List UInt8)
  /-- The rest of a `SendSync()` that has found the connection validated. -/
  | sendDirectly (message : List UInt8)
  /-- `socket_.Close()` -/
  | close
deriving DecidableEq

/-- `Connection` -/
structure Connection where
  /-- `auth_seed_` -/
  authSeed : NetworkOrder 8 := {}
  /-- `auth_key_` -/
  authKey : NetworkOrder 8 := {}
  /-- `priv_key_` -/
  privKey : BitVec (8 * 8) := 0
  /-- `outbox_` -/
  outbox : List (List UInt8) := []
  /-- `is_connection_validated_`, and its cached copy. -/
  isConnectionValidated : Bool := false
  /-- `socket_` -/
  socket : Outgoing := {}
  stage : Stage := .idle
  /-- The calls that have not returned. -/
  calls : List Call := []
  /-- The bytes that `recv()` has returned. -/
  received : List UInt8 := []
  /-- How often `OnClientValidated()` was called. -/
  clientValidated : ℕ := 0
  /-- What `OnConnectionError()` was called with. -/
  connectionErrors : List SockErrorCode := []

/-- What the kernel does in a step, and the message at the front of an empty `outbox_`. -/
structure Outcome where
  transmission : Transmission := { results := [] }
  result : SendResult := .busy
  stray : List UInt8 := []

/-- The steps of a connection. -/
inductive Action
  | initiateHandshake (t : Transmission)
  /-- `recv()` returns to the receive that is waiting. -/
  | recv (result : RecvResult)
  /-- The completion handler of the receive is called. -/
  | complete (t : Transmission)
  | sendBackloggedMessages (ts : List Transmission)
  | onClientValidated
  | receiveMessageHeader
  /-- The rest of `FinalizeReception()`. -/
  | resume
  | send (message : List UInt8)
  | sendSync (message : List UInt8)
  | close
  /-- A call goes on. -/
  | proceed (call : Call) (outcome : Outcome)
  /-- `send_operation_` goes on. -/
  | perform (result : SendResult)

namespace Connection

variable (identity : Identity) (order : ByteOrder)

/-- The messages that were enqueued or passed to `OnMessage()`. -/
def messages (c : Connection) : List GenericMessage2 :=
  match c.stage with
  | .reception r => r.delivered
  | .idle | .readSeed _ | .readKey _ | .sendBacklog | .notifyOwner | .startReception | .ended => []

/-- `HandleCommunicationError()` -/
def handleCommunicationError (ec : SockErrorCode) (c : Connection) : Connection :=
  { c with connectionErrors := c.connectionErrors ++ [ec], socket := c.socket.close }

/-! ## The handshake -/

/-- `WriteSeed()` -/
def writeSeed (t : Transmission) (c : Connection) : Connection :=
  let (socket, result) := c.socket.sendSync (c.authSeed.data order) t
  let c := { c with socket }
  match result with
  | none => { c with stage := .ended }
  | some (.ok _) => { c with stage := .readKey (.receiveAsync 8) }
  | some (.error ec) => { c.handleCommunicationError ec with stage := .ended }

/-- `InitiateHandshake()` -/
def initiateHandshake (t : Transmission) (c : Connection) : Connection :=
  if c.socket.isConnected then
    match identity with
    | .kServer => c.writeSeed order t
    | .kClient => { c with stage := .readSeed (.receiveAsync 8) }
  else { c with socket := c.socket.close, stage := .ended }

/-- `WriteKey()` -/
def writeKey (t : Transmission) (c : Connection) : Connection :=
  let c := { c with authKey := .ofHost order (computeKey (c.authSeed.toHost order)) }
  let (socket, result) := c.socket.sendSync (c.authKey.data order) t
  let c := { c with socket }
  match result with
  | none => { c with stage := .ended }
  | some (.ok _) => { c with isConnectionValidated := true, stage := .sendBacklog }
  | some (.error ec) => { c.handleCommunicationError ec with stage := .ended }

/-- The completion handler of `ReadSeed()`. -/
def onSeed (result : Except SockErrorCode (List UInt8)) (t : Transmission) (c : Connection) :
    Connection :=
  match result with
  | .ok bytes => ({ c with authSeed := .ofData order bytes }).writeKey order t
  | .error ec => { c.handleCommunicationError ec with stage := .ended }

/-- The completion handler of `ReadKey()`, up to `SetConnectionValidated()`. -/
def onKey (result : Except SockErrorCode (List UInt8)) (c : Connection) : Connection :=
  match result with
  | .ok bytes =>
    let c := { c with authKey := .ofData order bytes }
    -- the key of the peer against that of the seed it was sent
    if c.authKey.toHost order = c.privKey then
      { c with isConnectionValidated := true, stage := .sendBacklog }
    else
      { c.handleCommunicationError .connectionAuthenticationFailed with stage := .ended }
  | .error ec => { c.handleCommunicationError ec with stage := .ended }

/-- The loop of `SendBackloggedMessages()`, and whether it has ended. -/
def sendBacklogLoop : List (List UInt8) → Outgoing → List Transmission → Outgoing × Bool
  | [], socket, _ => (socket, true)
  | _ :: _, socket, [] => (socket, false)
  | message :: messages, socket, t :: ts =>
    match socket.sendSync message t with
    | (socket, none) => (socket, false)
    -- an error is only logged
    | (socket, some _) => sendBacklogLoop messages socket ts

/-- `SendBackloggedMessages()`; an error drops the message. -/
def sendBackloggedMessages (ts : List Transmission) (c : Connection) : Connection :=
  match sendBacklogLoop c.outbox c.socket ts with
  | (socket, false) => { c with socket, stage := .ended }
  | (socket, true) =>
    { c with
      socket
      outbox := []
      stage := match identity with
        | .kServer => .notifyOwner
        | .kClient => .startReception }

/-! ## The reception loop -/

/-- A step of the reception loop. Its failure is a communication error. -/
def receptionStep (r : Reception) (a : ReceptionStep) (c : Connection) : Option Connection :=
  match r.step order a with
  | none => none
  | some r' =>
    let c := { c with stage := .reception r' }
    match r'.phase with
    | .failed ec => some (c.handleCommunicationError ec)
    | .header _ | .body _ | .finalizing | .overflowed => some c

/-- `recv()` returns to the receive that is waiting. -/
def recv (result : RecvResult) (c : Connection) : Option Connection :=
  let received := c.received ++ result.data
  match c.stage with
  | .readSeed operation =>
    if operation.Receives result then
      some { c with received, stage := .readSeed (operation.perform result) }
    else none
  | .readKey operation =>
    if operation.Receives result then
      some { c with received, stage := .readKey (operation.perform result) }
    else none
  | .reception r => ({ c with received }).receptionStep order r (.recv result)
  | .idle | .sendBacklog | .notifyOwner | .startReception | .ended => none

/-- The completion handler of the receive is called. -/
def complete (t : Transmission) (c : Connection) : Option Connection :=
  match c.stage with
  | .readSeed (.completed result) => some (c.onSeed order result t)
  | .readKey (.completed result) => some (c.onKey order result)
  | .reception r => c.receptionStep order r .complete
  | .readSeed (.ongoing _ _) | .readKey (.ongoing _ _) | .idle | .sendBacklog | .notifyOwner
  | .startReception | .ended => none

/-! ## Sending -/

/-- The rest of a call of `SendAsync()` after its first `send()`: the completion handler is posted
if the operation is complete. -/
def postCompletion (sent : Outgoing × Option (Except SockErrorCode Unit)) (c : Connection) :
    Connection :=
  match sent with
  | (socket, none) => { c with socket }
  | (socket, some result) => { c with socket, calls := .sendCompleted result :: c.calls }

/-- A call goes on, after it was taken from the list of calls. -/
def proceed (outcome : Outcome) (c : Connection) : Call → Connection
  | .doSendMessage2 message =>
    -- a message in `outbox_` counts as being sent, although it may be there from `SendSync()`
    let sendInProgress := !c.outbox.isEmpty
    let c := { c with outbox := c.outbox ++ [message] }
    if sendInProgress || !c.isConnectionValidated then c
    else { c with calls := .doSendNextMessage :: c.calls }
  | .doSendNextMessage =>
    c.postCompletion (c.socket.sendAsync (c.outbox.headD outcome.stray) outcome.result)
  | .sendCompleted result =>
    let c := { c with outbox := c.outbox.tail }
    match result with
    | .ok _ => if c.outbox.isEmpty then c else { c with calls := .doSendNextMessage :: c.calls }
    | .error ec => c.handleCommunicationError ec
  | .sendSync message =>
    if c.isConnectionValidated then { c with calls := .sendDirectly message :: c.calls }
    else { c with calls := .saveMessage message :: c.calls }
  | .saveMessage message => { c with outbox := c.outbox ++ [message] }
  | .sendDirectly message =>
    let (socket, result) := c.socket.sendSync message outcome.transmission
    let c := { c with socket }
    match result with
    | none | some (.ok _) => c
    | some (.error ec) =>
      match identity with
      | .kClient =>
        -- a client keeps the message for its next connection
        if ec.isUnconnected then { c with outbox := c.outbox ++ [message] }
        else { c with calls := .close :: c.calls }
      | .kServer => { c with calls := .close :: c.calls }
  | .close => { c with socket := c.socket.close }

/-! ## The machine -/

/-- What is certainly left of the kernel's send buffer: nothing is known of what the peer
has taken. -/
def room (capacity : ℕ) (c : Connection) : ℕ := capacity - c.socket.written.length

/-- Execute a step. -/
def step (capacity : ℕ) (c : Connection) : Action → Option Connection
  | .initiateHandshake t =>
    match c.stage with
    | .idle =>
      if t.Allowed (c.room capacity) 8 then some (c.initiateHandshake identity order t) else none
    | .readSeed _ | .readKey _ | .sendBacklog | .notifyOwner | .startReception | .reception _
    | .ended => none
  | .recv result => if c.socket.isConnected then c.recv order result else none
  | .complete t => if t.Allowed (c.room capacity) 8 then c.complete order t else none
  | .sendBackloggedMessages ts =>
    match c.stage with
    | .sendBacklog => some (c.sendBackloggedMessages identity ts)
    | .idle | .readSeed _ | .readKey _ | .notifyOwner | .startReception | .reception _
    | .ended => none
  | .onClientValidated =>
    match c.stage with
    | .notifyOwner =>
      some { c with clientValidated := c.clientValidated + 1, stage := .startReception }
    | .idle | .readSeed _ | .readKey _ | .sendBacklog | .startReception | .reception _ | .ended =>
      none
  | .receiveMessageHeader =>
    match c.stage with
    | .startReception =>
      some { c with
        stage := .reception ({ phase := .finalizing } : Reception).receiveMessageHeader }
    | .idle | .readSeed _ | .readKey _ | .sendBacklog | .notifyOwner | .reception _ | .ended => none
  | .resume =>
    match c.stage with
    | .reception r => c.receptionStep order r .resume
    | .idle | .readSeed _ | .readKey _ | .sendBacklog | .notifyOwner | .startReception | .ended =>
      none
  | .send message => some { c with calls := .doSendMessage2 message :: c.calls }
  | .sendSync message => some { c with calls := .sendSync message :: c.calls }
  | .close => some { c with calls := .close :: c.calls }
  | .proceed call outcome =>
    if call ∈ c.calls then
      some (({ c with calls := c.calls.erase call }).proceed identity outcome call)
    else none
  | .perform result =>
    match c.socket.sendOperation with
    | none => none
    | some buf =>
      if c.socket.isConnected then some (c.postCompletion (c.socket.performSend buf result))
      else none

/-- A server's connection after `accept()`. `PrepareAuthInfo()` has drawn the seed. -/
def accepted (seed : BitVec (8 * 8)) : Connection where
  authSeed := .ofHost order seed
  privKey := computeKey seed

/-- The smallest send buffer that a socket can have. -/
def minimalSendBuffer : ℕ := 2048

/-- The machine of a server's connection with the given seed. -/
def server (capacity : ℕ) (seed : BitVec (8 * 8)) : Machine Connection Action where
  init c := c = accepted order seed ∧ minimalSendBuffer ≤ capacity
  step := step .kServer order capacity

/-- The machine of a client's connection. -/
def client (capacity : ℕ) : Machine Connection Action where
  init c := c = {} ∧ minimalSendBuffer ≤ capacity
  step := step .kClient order capacity

end Connection

end Asrt.ClientServer
