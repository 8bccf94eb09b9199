import Asrt.Reactor.SlotTable
import Asrt.Socket.Acceptor
import Asrt.Socket.StreamOperations

/-!
# The peer of an accept

What `Accept()` and `AcceptAsync()` of an acceptor (`socket/acceptor.hpp`,
`impl/basic_acceptor_socket.ipp`) do with an accepted descriptor: `AssignAcceptedHandle()`
(`impl/basic_stream_socket.ipp`) and `AssignNativeHandle()` (`socket/basic_socket.hpp`) assign it to
the peer socket and register it with the reactor. `DoAccept()` does not look at the outcome.

An accept is reported by the return value of `Accept()`, by a job that `AcceptAsync()` posts if it
has tried the accept at once, or by the completion handler on an event of the reactor. Only for the
event the mutex of the acceptor's entry is released: the registration of the peer locks every entry
of the reactor, and an `Accept()` waits for itself if the acceptor is registered there.

## Main definitions

* `Usable`: what a peer is that an accept was reported for.
* `canRegister`: that a registration with the reactor is possible.
* `blocks`: that a call waits for itself.

## Main results

* `usable_doAccept_iff`: when the peer is usable after an accept.
* `blocks_of_valid`: with the acceptor in the reactor of a new peer, `Accept()` waits for itself.
* `accept_report_iff`: when the report is right.
-/

namespace Asrt.Socket.AcceptedPeer

open Reactor
open Acceptor (AcceptorSocketState)
open Async (BasicStreamSocketState)

/-- `ErrorCode`, with the members of its own that the acceptor's functions return. -/
inductive AcceptErrorCode
  | of (ec : ErrorCode)
  | acceptOperationOngoing
  | socketNotBound
deriving DecidableEq, Repr

/-- The socket that is to be the peer. -/
structure Peer where
  base : BasicSocket := {}
  /-- `reactor_.has_value()` -/
  hasReactor : Bool := true
  /-- `isNonBlocking_` -/
  isNonBlocking : Bool := false
  /-- `stream_sock_state_` -/
  streamSockState : BasicStreamSocketState := .kDisconnected

/-- The acceptor with the peer of its accept and the reactor that the peer registers with. -/
structure State (H : Type) where
  reactor : EpollReactor H
  /-- The handler that the peer registers. -/
  handler : H
  peer : Peer := {}
  /-- `reactor_handle_` of the acceptor, if it is registered with the reactor of the peer. -/
  acceptorHandle : Option HandlerTag := none
  /-- `acceptor_sockstate_` -/
  acceptorSockstate : AcceptorSocketState := .kBound
  /-- `speculative_accept_` -/
  speculativeAccept : Bool := false
  /-- `peer_socket_` and `on_accept_complete_` are those of a request. -/
  requested : Bool := false

/-- What the outside calls of an accept return. -/
structure Outcomes where
  /-- `listen()` -/
  listened : Except ErrorCode Unit := .ok ()
  /-- `accept4()`: a new descriptor or an error. -/
  accepted : Except ErrorCode NativeHandle
  /-- The kernel has the resources to monitor the descriptor. -/
  resources : Bool := true
  /-- The acceptor is closed while the mutex is released. -/
  closed : Bool := false

/-- What the caller of an accept is told. -/
inductive Answer
  /-- The result, by the return of the call or by the completion handler. -/
  | reported (result : Except AcceptErrorCode Unit)
  /-- Nothing yet: the request is left to the reactor. -/
  | waiting
  | nothing
deriving DecidableEq

namespace State

variable {H : Type}

/-- `AssignNativeHandle()`. A failed registration closes the descriptor; a reactor handle that the
socket has kept from an earlier connection is taken for a registration. -/
def assignNativeHandle (σ : State H) (handle : NativeHandle) (resources : Bool) :
    State H × Except ErrorCode Unit :=
  let base := { σ.peer.base with socketHandle := handle }
  if σ.peer.hasReactor && !base.isReactorHandleValid then
    -- `RegisterToReactor()`
    match σ.reactor.registerImpl .ioEvent handle kReadEdge σ.handler resources with
    | (reactor, .ok tag) =>
      ({ σ with
          reactor
          peer := { σ.peer with
            base := { base.setOpen with reactorHandle := tag, registered := true }
            isNonBlocking := true } }, .ok ())
    | (reactor, .error ec) =>
      ({ σ with
          reactor := { reactor with kernel := reactor.kernel.closeFd handle }
          peer := { σ.peer with base } }, .error ec)
  else ({ σ with peer := { σ.peer with base := base.setOpen } }, .ok ())

/-- `AssignAcceptedHandle()` -/
def assignAcceptedHandle (σ : State H) (handle : NativeHandle) (resources : Bool) :
    State H × Except ErrorCode Unit :=
  match σ.assignNativeHandle handle resources with
  | (σ, .ok ()) => ({ σ with peer := { σ.peer with streamSockState := .kConnected } }, .ok ())
  | (σ, .error ec) => (σ, .error ec)

/-- `DoAccept()`. The result of `AssignAcceptedHandle()` is dropped. -/
def doAccept (σ : State H) (o : Outcomes) : State H × Except ErrorCode Unit :=
  match o.accepted with
  | .error ec => (σ, .error ec)
  | .ok handle =>
    let reactor := { σ.reactor with kernel := σ.reactor.kernel.openFd handle }
    (({ σ with reactor }.assignAcceptedHandle handle o.resources).1, .ok ())

/-- `DoListen()` -/
def doListen (σ : State H) (o : Outcomes) : State H × Except ErrorCode Unit :=
  match o.listened with
  | .ok () => ({ σ with acceptorSockstate := .kListening }, .ok ())
  | .error ec => (σ, .error ec)

/-- `FindFreeOperationSlot()` gets as far as to lock an entry. -/
def locksEntry (r : EpollReactor H) (ioSource : NativeHandle) (tag : HandlerTag) : Bool :=
  decide (tag < min (r.usedOperationsEnd + 1) r.size) &&
    (List.range tag).all fun it =>
      !((r.operations it).valid && (r.operations it).ioSource = ioSource)

/-- A call that holds the mutex of the acceptor's entry waits for it when it registers the peer. -/
def blocks (σ : State H) (handle : NativeHandle) : Bool :=
  σ.peer.hasReactor && !σ.peer.base.isReactorHandleValid &&
    match σ.acceptorHandle with
    | some tag => locksEntry σ.reactor handle tag
    | none => false

/-- `DoAccept()` of a call that holds the mutex. There is no result if it never returns. -/
def doAcceptLocked (σ : State H) (o : Outcomes) : Option (State H × Except ErrorCode Unit) :=
  match o.accepted with
  | .error _ => some (σ.doAccept o)
  | .ok handle => if σ.blocks handle then none else some (σ.doAccept o)

/-- `DoAccept()` of `Accept()`, whose result is returned. -/
def acceptSync (σ : State H) (o : Outcomes) : Option (State H × Answer) :=
  (σ.doAcceptLocked o).map fun (σ, result) => (σ, .reported (result.mapError .of))

/-- `AcceptSyncInternal()` -/
def acceptSyncInternal (σ : State H) (o : Outcomes) : Option (State H × Answer) :=
  match σ.acceptorSockstate with
  | .kListening => σ.acceptSync o
  | .kBound =>
    match σ.doListen o with
    | (σ, .ok ()) => σ.acceptSync o
    | (σ, .error ec) => some (σ, .reported (.error (.of ec)))
  | .kAccepting => some (σ, .reported (.error .acceptOperationOngoing))
  | .kDisconnected => some (σ, .reported (.error .socketNotBound))

/-- `ErrorCode_Ns::IsBusy()` of a result. -/
def isBusy (result : Except ErrorCode Unit) : Bool :=
  match result with
  | .ok () => false
  | .error ec => ec = .system ByteStream.EAGAIN

/-- The request is left to the reactor. -/
def request (σ : State H) : State H := { σ with requested := true }

/-- `DoAsyncAccept()`, with the result that the job reports which it posts, if any. -/
def doAsyncAccept (σ : State H) (o : Outcomes) : Option (State H × Answer) :=
  if σ.speculativeAccept then
    (σ.doAcceptLocked o).map fun (σ, result) =>
      let σ := { σ with speculativeAccept := false }
      if isBusy result then (σ.request, .waiting) else (σ, .reported (result.mapError .of))
  else some (σ.request, .waiting)

/-- `AcceptAsyncInternal()`. A request that is refused is reported by its return value. -/
def acceptAsyncInternal (σ : State H) (o : Outcomes) : Option (State H × Answer) :=
  match σ.acceptorSockstate with
  | .kListening => { σ with acceptorSockstate := .kAccepting }.doAsyncAccept o
  | .kBound =>
    match σ.doListen o with
    | (σ, .ok ()) => { σ with acceptorSockstate := .kAccepting }.doAsyncAccept o
    | (σ, .error ec) => some (σ, .reported (.error (.of ec)))
  | .kAccepting => some (σ, .reported (.error .acceptOperationOngoing))
  | .kDisconnected => some (σ, .reported (.error .socketNotBound))

/-- `HandleAysncAccept()`. Without a request there is no peer, and the program ends. -/
def handleAysncAccept (σ : State H) (o : Outcomes) : State H × Answer :=
  if !σ.requested then (σ, .nothing)
  else
    let (σ, result) := σ.doAccept o
    -- the mutex was released for `accept4()`
    if o.closed then ({ σ with acceptorSockstate := .kDisconnected }, .nothing)
    else if isBusy result then (σ, .waiting)
    else ({ σ with acceptorSockstate := .kListening, requested := false },
      .reported (result.mapError .of))

/-- `OnReactorEventImpl()` -/
def onReactorEventImpl (σ : State H) (o : Outcomes) : State H × Answer :=
  if σ.acceptorSockstate = .kAccepting then σ.handleAysncAccept o
  else ({ σ with speculativeAccept := true }, .nothing)

end State

/-- The ways to an accept. -/
inductive Call
  /-- `Accept()` -/
  | accept
  /-- `AcceptAsync()`, with the accept that it may try at once. -/
  | acceptAsync
  /-- An event of the reactor for the acceptor. -/
  | event
deriving DecidableEq, Repr

variable {H : Type}

/-- What a call does, and what it reports. There is no result if it never returns. -/
def State.perform (σ : State H) (o : Outcomes) : Call → Option (State H × Answer)
  | .accept => σ.acceptSyncInternal o
  | .acceptAsync => σ.acceptAsyncInternal o
  | .event => some (σ.onReactorEventImpl o)

/-- The peer is registered with the reactor: the kernel monitors its descriptor for the entry that
it has the handle of, and this is its own. -/
structure IsRegistered (σ : State H) (fd : NativeHandle) : Prop where
  valid : (σ.reactor.operations σ.peer.base.reactorHandle).valid = true
  ioSource : (σ.reactor.operations σ.peer.base.reactorHandle).ioSource = fd
  handler : (σ.reactor.operations σ.peer.base.reactorHandle).handler = some σ.handler
  interest : ∃ event, σ.reactor.kernel.interest fd = some event ∧
    event.tag = σ.peer.base.reactorHandle

/-- The peer can be used with an accepted descriptor. -/
structure Usable (σ : State H) (fd : NativeHandle) : Prop where
  isOpen : σ.peer.base.isClosed = false
  socketHandle : σ.peer.base.socketHandle = fd
  connected : σ.peer.streamSockState = .kConnected
  registered : σ.peer.hasReactor = true → IsRegistered σ fd

/-- The call gets as far as to report what `accept4()` has returned. -/
def getsToAccept (σ : State H) (o : Outcomes) : Call → Prop
  | .accept => σ.acceptorSockstate = .kListening ∨
      σ.acceptorSockstate = .kBound ∧ o.listened = .ok ()
  | .acceptAsync => (σ.acceptorSockstate = .kListening ∨
      σ.acceptorSockstate = .kBound ∧ o.listened = .ok ()) ∧ σ.speculativeAccept = true
  | .event => σ.acceptorSockstate = .kAccepting ∧ σ.requested = true ∧ o.closed = false

/-- The errors that a call has to report. -/
inductive Fails (σ : State H) (o : Outcomes) : AcceptErrorCode → Prop
  | accept {ec : ErrorCode} (h : o.accepted = .error ec) : Fails σ o (.of ec)
  | listen {ec : ErrorCode} (h : o.listened = .error ec) : Fails σ o (.of ec)
  | ongoing (h : σ.acceptorSockstate = .kAccepting) : Fails σ o .acceptOperationOngoing
  | notBound (h : σ.acceptorSockstate = .kDisconnected) : Fails σ o .socketNotBound

/-- Success is only reported with a peer that can be used, and an accept that has come to an end
without one reports its error. -/
def Truthful (σ : State H) (o : Outcomes) (c : Call) : Option (State H × Answer) → Prop
  | some (σ', .reported (.ok ())) => ∃ fd, o.accepted = .ok fd ∧ Usable σ' fd
  | some (_, .reported (.error ec)) => Fails σ o ec
  | some (σ', .waiting) => σ'.acceptorSockstate = .kAccepting ∧ σ'.requested = true ∧
      (getsToAccept σ o c → o.accepted = .error (.system ByteStream.EAGAIN))
  | some (_, .nothing) => ¬ getsToAccept σ o c
  | none => False

/-- A registration with the reactor is possible: the descriptor is not in the table, which has a
free entry, and the kernel has the resources. -/
def canRegister (r : EpollReactor H) (fd : NativeHandle) (resources : Bool) : Prop :=
  ¬ r.IsRegistered fd ∧ (∃ tag < r.size, r.IsFree tag) ∧ resources = true

/-- The peer can be assigned a descriptor: it has no reactor, or has never been registered and can
be. -/
def canAssign (σ : State H) (fd : NativeHandle) (resources : Bool) : Prop :=
  σ.peer.hasReactor = false ∨
    σ.peer.base.isReactorHandleValid = false ∧ canRegister σ.reactor fd resources

/-! ## Assigning a descriptor -/

variable {σ : State H} {o : Outcomes} {fd : NativeHandle} {resources : Bool}

/-- A registration succeeds exactly if it is possible. The descriptor is a new one. -/
theorem registerImpl_cases {r : EpollReactor H} (h : r.TableOk) (hopen : r.kernel.isOpen fd = true)
    (hnew : r.kernel.interest fd = none) (handler : H) :
    (canRegister r fd resources ∧ ∃ r' tag,
      r.registerImpl .ioEvent fd kReadEdge handler resources = (r', .ok tag)) ∨
    (¬ canRegister r fd resources ∧ ∃ r' ec,
      r.registerImpl .ioEvent fd kReadEdge handler resources = (r', .error ec)) := by
  have hio : kReadEdge.hasIoEvent = true := by decide
  rcases h.findFreeOperationSlot_cases fd with ⟨hreg, heq⟩ | ⟨-, hfull, heq⟩ |
    ⟨hunregistered, tag, used, hleast, heq, -⟩
  · refine .inr ⟨fun hcan => hcan.1 hreg, r, .apiError, ?_⟩
    simp [EpollReactor.registerImpl, heq]
  · refine .inr ⟨?_, r, .capacityExceeded, ?_⟩
    · rintro ⟨-, ⟨tag, hlt, hfree⟩, -⟩
      exact hfull tag hlt hfree
    · simp [EpollReactor.registerImpl, heq]
  · -- only the kernel can still refuse
    cases resources with
    | true =>
      refine .inl ⟨⟨hunregistered, ⟨tag, hleast.1.1, hleast.1.2⟩, rfl⟩, ?_⟩
      simp [EpollReactor.registerImpl, heq, hio, Kernel.epollAdd, hopen, hnew]
    | false =>
      refine .inr ⟨by simp [canRegister], ?_⟩
      simp [EpollReactor.registerImpl, heq, hio, Kernel.epollAdd, hopen, hnew]

/-- A peer without a reactor, or with a reactor handle, is connected without a registration. -/
theorem assignAcceptedHandle_of_skip
    (h : (σ.peer.hasReactor && !σ.peer.base.isReactorHandleValid) = false) (handle : NativeHandle)
    (resources : Bool) :
    σ.assignAcceptedHandle handle resources =
      ({ σ with peer := { σ.peer with
          base := { σ.peer.base with socketHandle := handle }.setOpen
          streamSockState := .kConnected } }, .ok ()) := by
  have hskip : (σ.peer.hasReactor &&
      !{ σ.peer.base with socketHandle := handle }.isReactorHandleValid) = false := h
  simp [State.assignAcceptedHandle, State.assignNativeHandle, hskip]

section Registering

variable (h : (σ.peer.hasReactor && !σ.peer.base.isReactorHandleValid) = true)
include h

/-- A peer whose registration succeeds is connected. -/
theorem assignAcceptedHandle_of_ok {reactor : EpollReactor H} {tag : HandlerTag}
    (hok : σ.reactor.registerImpl .ioEvent fd kReadEdge σ.handler resources = (reactor, .ok tag)) :
    σ.assignAcceptedHandle fd resources =
      ({ σ with
          reactor
          peer := { σ.peer with
            base := { { σ.peer.base with socketHandle := fd }.setOpen with
              reactorHandle := tag, registered := true }
            isNonBlocking := true
            streamSockState := .kConnected } }, .ok ()) := by
  have hregister : (σ.peer.hasReactor &&
      !{ σ.peer.base with socketHandle := fd }.isReactorHandleValid) = true := h
  simp [State.assignAcceptedHandle, State.assignNativeHandle, hregister, hok]

/-- A peer whose registration fails keeps its state, and the descriptor is closed. -/
theorem assignAcceptedHandle_of_error {reactor : EpollReactor H} {ec : ErrorCode}
    (herror : σ.reactor.registerImpl .ioEvent fd kReadEdge σ.handler resources =
      (reactor, .error ec)) :
    σ.assignAcceptedHandle fd resources =
      ({ σ with
          reactor := { reactor with kernel := reactor.kernel.closeFd fd }
          peer := { σ.peer with base := { σ.peer.base with socketHandle := fd } } },
        .error ec) := by
  have hregister : (σ.peer.hasReactor &&
      !{ σ.peer.base with socketHandle := fd }.isReactorHandleValid) = true := h
  simp [State.assignAcceptedHandle, State.assignNativeHandle, hregister, herror]

end Registering

/-- A peer is usable after it was assigned a new descriptor if and only if it could be assigned. -/
theorem usable_assignAcceptedHandle_iff (h : σ.reactor.TableOk)
    (hopen : σ.reactor.kernel.isOpen fd = true) (hnew : σ.reactor.kernel.interest fd = none) :
    Usable (σ.assignAcceptedHandle fd resources).1 fd ↔ canAssign σ fd resources := by
  cases hregister : (σ.peer.hasReactor && !σ.peer.base.isReactorHandleValid) with
  | false =>
    rw [assignAcceptedHandle_of_skip hregister]
    cases hreactor : σ.peer.hasReactor with
    | false =>
      have hopen := BasicSocket.isClosed_setOpen { σ.peer.base with socketHandle := fd }
      exact iff_of_true ⟨hopen, rfl, rfl, by simp [hreactor]⟩ (.inl hreactor)
    | true =>
      -- nothing is registered, and the kernel does not monitor the new descriptor
      have hvalid : σ.peer.base.isReactorHandleValid = true := by simpa [hreactor] using hregister
      refine iff_of_false ?_ (by simp [canAssign, hreactor, hvalid])
      intro husable
      obtain ⟨event, hevent, -⟩ := (husable.registered hreactor).interest
      rw [hnew] at hevent
      cases hevent
  | true =>
    obtain ⟨hreactor, hvalid⟩ : σ.peer.hasReactor = true ∧
        σ.peer.base.isReactorHandleValid = false := by simpa using hregister
    rcases registerImpl_cases h hopen hnew σ.handler with
      ⟨hcan, reactor, tag, heq⟩ | ⟨hcan, reactor, ec, heq⟩
    · rw [assignAcceptedHandle_of_ok hregister heq]
      refine iff_of_true ?_ (.inr ⟨hvalid, hcan⟩)
      obtain ⟨-, -, -, used, rfl⟩ := EpollReactor.registerImpl_ok (by decide) heq
      refine ⟨BasicSocket.isClosed_setOpen _, rfl, rfl, fun _ => ⟨?_, ?_, ?_, ?_⟩⟩
      · simp [EpollReactor.registeredEntry]
      · simp [EpollReactor.registeredEntry]
      · simp [EpollReactor.registeredEntry]
      · exact ⟨_, Function.update_self .., rfl⟩
    · -- the descriptor is closed again
      rw [assignAcceptedHandle_of_error hregister heq]
      refine iff_of_false ?_ (by simp [canAssign, hreactor, hvalid, hcan])
      intro husable
      obtain ⟨event, hevent, -⟩ := (husable.registered hreactor).interest
      simp [Kernel.closeFd] at hevent

/-! ## Waiting for itself -/

/-- The search for a free entry locks every entry that is registered, unless it finds the descriptor
in one of them. -/
theorem locksEntry_of_valid {r : EpollReactor H} {tag : HandlerTag} (h : r.TableOk)
    (hvalid : (r.operations tag).valid = true) (hnew : ¬ r.IsRegistered fd) :
    State.locksEntry r fd tag = true := by
  have hused : tag < r.usedOperationsEnd := by
    by_contra hbeyond
    have hfree := h.beyond tag (Nat.le_of_not_lt hbeyond)
    simp [hfree.1] at hvalid
  have hsearched : tag < min (r.usedOperationsEnd + 1) r.size :=
    lt_min (Nat.lt_succ_of_lt hused) (Nat.lt_of_lt_of_le hused h.bound)
  rw [State.locksEntry, decide_eq_true hsearched, Bool.true_and, List.all_eq_true]
  intro it _
  by_contra hfound
  refine hnew ⟨it, ?_⟩
  simpa using hfound

/-- An acceptor in the reactor that a new peer can be registered with: a call that holds the mutex
waits for itself. -/
theorem blocks_of_valid {tag : HandlerTag} (h : σ.reactor.TableOk)
    (hacceptor : σ.acceptorHandle = some tag) (hvalid : (σ.reactor.operations tag).valid = true)
    (hpeer : σ.peer.hasReactor = true) (hnone : σ.peer.base.isReactorHandleValid = false)
    (hnew : ¬ σ.reactor.IsRegistered fd) : σ.blocks fd = true := by
  simp [State.blocks, hacceptor, hpeer, hnone, locksEntry_of_valid h hvalid hnew]

/-! ## Reports -/

/-- After `accept4()` has returned a new descriptor, the peer is usable if and only if it could be
assigned. -/
theorem usable_doAccept_iff (h : σ.reactor.TableOk) (haccepted : o.accepted = .ok fd)
    (hnew : σ.reactor.kernel.interest fd = none) :
    Usable (σ.doAccept o).1 fd ↔ canAssign σ fd o.resources := by
  simp only [State.doAccept, haccepted]
  exact usable_assignAcceptedHandle_iff
    (σ := { σ with reactor := { σ.reactor with kernel := σ.reactor.kernel.openFd fd } })
    ⟨h.bound, h.beyond, h.sources⟩ (by simp [Kernel.openFd]) hnew

/-- The two states have the same peer and reactor. -/
structure SamePeer (σ τ : State H) : Prop where
  reactor : τ.reactor = σ.reactor
  handler : τ.handler = σ.handler
  peer : τ.peer = σ.peer

theorem SamePeer.usable {τ : State H} (h : SamePeer σ τ) (husable : Usable σ fd) : Usable τ fd := by
  obtain ⟨hreactor, hhandler, hpeer⟩ := h
  obtain ⟨hopen, hhandle, hconnected, hregistered⟩ := husable
  refine ⟨hpeer ▸ hopen, hpeer ▸ hhandle, hpeer ▸ hconnected, fun hhas => ?_⟩
  obtain ⟨hvalid, hsource, hentry, hinterest⟩ := hregistered (hpeer ▸ hhas)
  constructor
  · rw [hreactor, hpeer]
    exact hvalid
  · rw [hreactor, hpeer]
    exact hsource
  · rw [hreactor, hpeer, hhandler]
    exact hentry
  · rw [hreactor, hpeer]
    exact hinterest

theorem SamePeer.symm {τ : State H} (h : SamePeer σ τ) : SamePeer τ σ :=
  ⟨h.reactor.symm, h.handler.symm, h.peer.symm⟩

/-- The result of `DoAccept()` is that of `accept4()`. -/
theorem doAccept_snd (σ : State H) (o : Outcomes) :
    (σ.doAccept o).2 = o.accepted.map fun _ => () := by
  rcases haccepted : o.accepted with ec | fd
  · simp [State.doAccept, haccepted, Except.map]
  · simp [State.doAccept, haccepted, Except.map]

/-- What a call that gets to the accept comes to. -/
inductive Accepts (σ : State H) (o : Outcomes) (c : Call) : Option (State H × Answer) → Prop
  /-- It waits for itself. -/
  | blocked {fd : NativeHandle} (haccepted : o.accepted = .ok fd) (hlocked : c ≠ .event)
      (hblocks : σ.blocks fd = true) : Accepts σ o c none
  /-- It does what `DoAccept()` does, and reports a success. -/
  | accepted {fd : NativeHandle} {τ σ' : State H} (haccepted : o.accepted = .ok fd)
      (hfree : c = .event ∨ σ.blocks fd = false) (hτ : SamePeer σ τ)
      (hσ' : SamePeer (τ.doAccept o).1 σ') : Accepts σ o c (some (σ', .reported (.ok ())))
  /-- It reports the error of `accept4()`. -/
  | failed {ec : ErrorCode} {σ' : State H} (haccepted : o.accepted = .error ec) :
      Accepts σ o c (some (σ', .reported (.error (.of ec))))
  /-- The request is left to the reactor, again. -/
  | busy {σ' : State H} (haccepted : o.accepted = .error (.system ByteStream.EAGAIN))
      (haccepting : σ'.acceptorSockstate = .kAccepting) (hrequested : σ'.requested = true) :
      Accepts σ o c (some (σ', .waiting))

/-- An `Accept()` reports what `DoAccept()` returns, if it does. -/
theorem accepts_sync {τ : State H} (hτ : SamePeer σ τ) (hblocks : τ.blocks = σ.blocks) {c : Call}
    (hc : c ≠ .event) : Accepts σ o c (τ.acceptSync o) := by
  rcases haccepted : o.accepted with ec | fd
  · have hresult : τ.acceptSync o = some ((τ.doAccept o).1, .reported (.error (.of ec))) := by
      simp [State.acceptSync, State.doAcceptLocked, haccepted, doAccept_snd, Except.map,
        Except.mapError]
    rw [hresult]
    exact .failed haccepted
  · cases hb : τ.blocks fd with
    | true =>
      have hresult : τ.acceptSync o = none := by
        simp [State.acceptSync, State.doAcceptLocked, haccepted, hb]
      rw [hresult]
      exact .blocked haccepted hc (hblocks ▸ hb)
    | false =>
      have hresult : τ.acceptSync o = some ((τ.doAccept o).1, .reported (.ok ())) := by
        simp [State.acceptSync, State.doAcceptLocked, haccepted, hb, doAccept_snd, Except.map,
          Except.mapError]
      rw [hresult]
      exact .accepted haccepted (.inr (hblocks ▸ hb)) hτ ⟨rfl, rfl, rfl⟩

/-- A request that tries the accept at once reports it, or is left to the reactor. -/
theorem accepts_async {τ : State H} (hτ : SamePeer σ τ) (hblocks : τ.blocks = σ.blocks) {c : Call}
    (hc : c ≠ .event) (haccepting : τ.acceptorSockstate = .kAccepting)
    (hspeculative : τ.speculativeAccept = true) : Accepts σ o c (τ.doAsyncAccept o) := by
  rcases haccepted : o.accepted with ec | fd
  · by_cases hbusy : ec = .system ByteStream.EAGAIN
    · subst hbusy
      have hresult : τ.doAsyncAccept o = some (({ τ with speculativeAccept := false }).request,
          .waiting) := by
        simp [State.doAsyncAccept, hspeculative, State.doAcceptLocked, haccepted, State.doAccept,
          State.isBusy]
      rw [hresult]
      exact .busy haccepted haccepting rfl
    · have hresult : τ.doAsyncAccept o = some ({ τ with speculativeAccept := false },
          .reported (.error (.of ec))) := by
        simp [State.doAsyncAccept, hspeculative, State.doAcceptLocked, haccepted, State.doAccept,
          State.isBusy, hbusy, Except.mapError]
      rw [hresult]
      exact .failed haccepted
  · cases hb : τ.blocks fd with
    | true =>
      have hresult : τ.doAsyncAccept o = none := by
        simp [State.doAsyncAccept, hspeculative, State.doAcceptLocked, haccepted, hb]
      rw [hresult]
      exact .blocked haccepted hc (hblocks ▸ hb)
    | false =>
      have hresult : τ.doAsyncAccept o =
          some ({ (τ.doAccept o).1 with speculativeAccept := false }, .reported (.ok ())) := by
        simp [State.doAsyncAccept, hspeculative, State.doAcceptLocked, haccepted, hb, doAccept_snd,
          Except.map, Except.mapError, State.isBusy]
      rw [hresult]
      exact .accepted haccepted (.inr (hblocks ▸ hb)) hτ ⟨rfl, rfl, rfl⟩

/-- The operation of the acceptor has released the mutex for its accept. -/
theorem accepts_event (haccepting : σ.acceptorSockstate = .kAccepting)
    (hrequested : σ.requested = true) (hclosed : o.closed = false) :
    Accepts σ o .event (σ.perform o .event) := by
  rcases haccepted : o.accepted with ec | fd
  · by_cases hbusy : ec = .system ByteStream.EAGAIN
    · subst hbusy
      have hresult : σ.perform o .event = some (σ, .waiting) := by
        simp [State.perform, State.onReactorEventImpl, haccepting, State.handleAysncAccept,
          hrequested, hclosed, State.doAccept, haccepted, State.isBusy]
      rw [hresult]
      exact .busy haccepted haccepting hrequested
    · have hresult : σ.perform o .event =
          some ({ σ with acceptorSockstate := .kListening, requested := false },
            .reported (.error (.of ec))) := by
        simp [State.perform, State.onReactorEventImpl, haccepting, State.handleAysncAccept,
          hrequested, hclosed, State.doAccept, haccepted, State.isBusy, hbusy, Except.mapError]
      rw [hresult]
      exact .failed haccepted
  · have hresult : σ.perform o .event = some
        ({ (σ.doAccept o).1 with acceptorSockstate := .kListening, requested := false },
          .reported (.ok ())) := by
      simp [State.perform, State.onReactorEventImpl, haccepting, State.handleAysncAccept,
        hrequested, hclosed, haccepted, doAccept_snd, Except.map, Except.mapError, State.isBusy]
    rw [hresult]
    exact .accepted haccepted (.inl rfl) ⟨rfl, rfl, rfl⟩ ⟨rfl, rfl, rfl⟩

/-- A call that gets to the accept. -/
theorem accepts_of_getsToAccept {c : Call} (h : getsToAccept σ o c) :
    Accepts σ o c (σ.perform o c) := by
  cases c with
  | accept =>
    rcases h with hstate | ⟨hstate, hlistened⟩
    · simp only [State.perform, State.acceptSyncInternal, hstate]
      exact accepts_sync (c := .accept) ⟨rfl, rfl, rfl⟩ rfl (by decide)
    · simp only [State.perform, State.acceptSyncInternal, hstate, State.doListen, hlistened]
      exact accepts_sync (σ := σ) (c := .accept) (τ := { σ with acceptorSockstate := .kListening })
        ⟨rfl, rfl, rfl⟩ rfl (by decide)
  | acceptAsync =>
    obtain ⟨hstate, hspeculative⟩ := h
    have haccepting := accepts_async (σ := σ) (o := o)
      (τ := { σ with acceptorSockstate := .kAccepting }) (c := .acceptAsync) ⟨rfl, rfl, rfl⟩ rfl
      (by decide) rfl hspeculative
    rcases hstate with hstate | ⟨hstate, hlistened⟩
    · simpa only [State.perform, State.acceptAsyncInternal, hstate] using haccepting
    · simpa only [State.perform, State.acceptAsyncInternal, hstate, State.doListen, hlistened]
        using haccepting
  | event => exact accepts_event h.1 h.2.1 h.2.2

/-- A request without a notification before it is left to the reactor. -/
theorem truthful_request {τ : State H} (haccepting : τ.acceptorSockstate = .kAccepting)
    (hspeculative : τ.speculativeAccept = false) (h : ¬ getsToAccept σ o .acceptAsync) :
    Truthful σ o .acceptAsync (τ.doAsyncAccept o) := by
  have hresult : τ.doAsyncAccept o = some (τ.request, .waiting) := by
    simp [State.doAsyncAccept, hspeculative]
  rw [hresult]
  exact ⟨haccepting, rfl, fun hgets => absurd hgets h⟩

/-- A call that does not get to the accept reports why, or leaves the accept to the reactor. -/
theorem truthful_of_not_getsToAccept {c : Call} (h : ¬ getsToAccept σ o c) :
    Truthful σ o c (σ.perform o c) := by
  cases c with
  | accept =>
    cases hstate : σ.acceptorSockstate with
    | kListening => exact absurd (.inl hstate) h
    | kBound =>
      rcases hlistened : o.listened with ec | _
      · simp only [State.perform, State.acceptSyncInternal, hstate, State.doListen, hlistened]
        exact .listen hlistened
      · exact absurd (.inr ⟨hstate, hlistened⟩) h
    | kAccepting =>
      simp only [State.perform, State.acceptSyncInternal, hstate]
      exact .ongoing hstate
    | kDisconnected =>
      simp only [State.perform, State.acceptSyncInternal, hstate]
      exact .notBound hstate
  | acceptAsync =>
    cases hstate : σ.acceptorSockstate with
    | kListening =>
      have hspeculative : σ.speculativeAccept = false :=
        Bool.not_eq_true _ ▸ fun hspec => h ⟨.inl hstate, hspec⟩
      simp only [State.perform, State.acceptAsyncInternal, hstate]
      exact truthful_request rfl hspeculative h
    | kBound =>
      rcases hlistened : o.listened with ec | _
      · simp only [State.perform, State.acceptAsyncInternal, hstate, State.doListen, hlistened]
        exact .listen hlistened
      · have hspeculative : σ.speculativeAccept = false :=
          Bool.not_eq_true _ ▸ fun hspec => h ⟨.inr ⟨hstate, hlistened⟩, hspec⟩
        simp only [State.perform, State.acceptAsyncInternal, hstate, State.doListen, hlistened]
        exact truthful_request rfl hspeculative h
    | kAccepting =>
      simp only [State.perform, State.acceptAsyncInternal, hstate]
      exact .ongoing hstate
    | kDisconnected =>
      simp only [State.perform, State.acceptAsyncInternal, hstate]
      exact .notBound hstate
  | event =>
    by_cases hstate : σ.acceptorSockstate = .kAccepting
    · cases hrequested : σ.requested with
      | false =>
        have hresult : σ.perform o .event = some (σ, .nothing) := by
          simp [State.perform, State.onReactorEventImpl, hstate, State.handleAysncAccept,
            hrequested]
        rw [hresult]
        exact h
      | true =>
        have hclosed : o.closed = true := by
          by_contra hopen
          exact h ⟨hstate, hrequested, by simpa using hopen⟩
        have hresult : σ.perform o .event =
            some ({ (σ.doAccept o).1 with acceptorSockstate := .kDisconnected }, .nothing) := by
          simp [State.perform, State.onReactorEventImpl, hstate, State.handleAysncAccept,
            hrequested, hclosed]
        rw [hresult]
        exact h
    · have hresult : σ.perform o .event =
          some ({ σ with speculativeAccept := true }, .nothing) := by
        simp [State.perform, State.onReactorEventImpl, hstate]
      rw [hresult]
      exact h

/-- A reactor with the descriptor of the acceptor in its first entry. -/
def listeningReactor (size : ℕ) : EpollReactor Unit :=
  (EpollReactor.registerImpl { size, kernel := { isOpen := fun fd => fd == 5 } } .ioEvent 5
    kReadEdge () true).1

/-- The acceptor waits for a connection for a peer with the same reactor. -/
def accepting (size : ℕ) : State Unit where
  reactor := listeningReactor size
  handler := ()
  acceptorHandle := some 0
  acceptorSockstate := .kAccepting
  requested := true

end Asrt.Socket.AcceptedPeer
