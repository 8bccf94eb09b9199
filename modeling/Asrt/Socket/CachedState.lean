import Asrt.Socket.BasicSocket

/-!
# Sockets and their descriptors

A `BasicSocket` (`socket/basic_socket.hpp`) keeps for itself whether it is open, non-blocking and
bound, and a `BasicDgramSocket` (`socket/basic_datagram_socket.hpp`) whether it has a default peer.
The kernel is never asked, so what is kept has to follow every call. Here the calls of one socket,
with or without a reactor, go on beside the descriptors of the kernel: `Open()`, `Close()`,
`Bind()`, `SetBlocking()`, `SetNonBlocking()`, the assignment of an accepted handle,
`SetDefaultPeer()` and `RemoveDefaultPeer()`.

`Close()` does not reset `isNonBlocking_`. It is set again only where a socket registers with its
reactor, and that happens once. What is opened later is blocking or not by the flags of `socket(2)`
or `accept4()`.

## Main results

- `State.assigned_or_failed`: what `AssignNativeHandle()` leaves.
- `State.HasHandle.step`: an open socket with a reactor has a reactor handle.
-/

namespace Asrt.Socket.KernelAgreement

open Reactor ToMathlib

/-- `BasicSocketState::kBound` -/
def kBound : BitVec 8 := 2

/-- What the kernel has of a socket. -/
structure Description where
  /-- `O_NONBLOCK` -/
  nonBlocking : Bool
  /-- A `bind(2)` has succeeded. -/
  bound : Bool := false
  /-- A `connect(2)` has set a default peer. -/
  peer : Bool := false
deriving DecidableEq, Repr

/-- The entry that the socket has registered with the reactor. -/
inductive Registration
  /-- There is none, or it is gone. -/
  | none
  | idle (fd : NativeHandle)
  /-- The handler of the entry executes. -/
  | executing (fd : NativeHandle)
  /-- The entry was deregistered meanwhile; the descriptor is closed when the handler returns. -/
  | closing (fd : NativeHandle)
deriving DecidableEq, Repr

namespace Registration

/-- The descriptor that the entry is for. -/
def fd? : Registration → Option NativeHandle
  | none => .none
  | idle fd | executing fd | closing fd => some fd

end Registration

/-- What `Deregister()` and `IsInUse()` return for a handle whose entry is not the socket's any
more. The entry may have been given to another socket, which then loses it. -/
inductive Deregistration
  | failed
  | free
  | inUse
deriving DecidableEq, Repr

/-- The outcomes of `socket(2)` and of the registration of the new descriptor. -/
structure Opening where
  fd : Option NativeHandle
  tag : Option HandlerTag
deriving DecidableEq, Repr

/-- A socket and the kernel. -/
structure State where
  /-- `HasReactor()` -/
  hasReactor : Bool
  base : BasicSocket := {}
  /-- `isNonBlocking_` -/
  isNonBlocking : Bool := false
  /-- `has_default_peer_` -/
  hasDefaultPeer : Bool := false
  registration : Registration := .none
  /-- The open descriptors. -/
  kernel : NativeHandle → Option Description

/-- The calls on the socket, and the steps of the reactor and the rest of the program. -/
inductive Action
  /-- `Open()`, and the opening by `Connect()`. -/
  | openSocket (opening : Opening)
  /-- `Bind()`; the protocol of the endpoint may be another one, and `bind(2)` may fail. -/
  | bind (opening : Opening) (matching succeeds : Bool)
  /-- `Close()`. Without a reactor, `succeeds` is the outcome of `close(2)`. -/
  | close (stale : Deregistration) (succeeds : Bool)
  /-- `SetBlocking()`, with the outcomes of the two calls of `fcntl(2)`. -/
  | setBlocking (gets sets : Bool)
  /-- `SetNonBlocking()` -/
  | setNonBlocking (gets sets : Bool)
  /-- `AssignNativeHandle()` with a descriptor that `accept4()` has returned. -/
  | assignAcceptedHandle (fd : NativeHandle) (tag : Option HandlerTag)
  | setDefaultPeer (opening : Opening) (matching succeeds : Bool)
  | removeDefaultPeer (succeeds : Bool)
  | beginHandler
  | endHandler
  /-- A descriptor that is not the socket's is opened, changed or closed. -/
  | other (fd : NativeHandle) (description : Option Description)
deriving DecidableEq, Repr

namespace State

/-- `GetNativeHandle()` -/
def handle (σ : State) : NativeHandle := σ.base.socketHandle

/-- `IsInState(kBound)` -/
def isBound (σ : State) : Bool := σ.base.basicSocketState &&& kBound = kBound

/-- `SetBasicSockState(kBound)` -/
def setBound (σ : State) : State :=
  { σ with base := { σ.base with basicSocketState := σ.base.basicSocketState ||| kBound } }

/-- A system call on the socket's descriptor. It fails if the descriptor is not open. -/
def systemCall (succeeds : Bool) (effect : Description → Description) (σ : State) :
    Option State :=
  if succeeds then (σ.kernel σ.handle).map fun description =>
    { σ with kernel := Function.update σ.kernel σ.handle (some (effect description)) }
  else none

/-- A descriptor is opened or closed. -/
def setKernel (fd : NativeHandle) (description : Option Description) (σ : State) : State :=
  { σ with kernel := Function.update σ.kernel fd description }

/-- Whether `AssignNativeHandle()` registers the socket. -/
def registers (σ : State) : Bool := σ.hasReactor && !σ.base.isReactorHandleValid

/-- `AssignNativeHandle()`. Without an entry of the reactor, the descriptor is closed again. -/
def assignNativeHandle (fd : NativeHandle) (tag : Option HandlerTag) (σ : State) : State :=
  let base := { σ.base with socketHandle := fd }
  if σ.registers then
    match tag with
    | some tag => { σ with
        base := { base.setOpen with reactorHandle := tag }
        isNonBlocking := true
        registration := .idle fd }
    | none => { σ with base }.setKernel fd none
  else { σ with base := base.setOpen }

/-- `DoOpenSocket()`. The flags of `socket(2)` contain `SOCK_NONBLOCK` if there is a reactor. -/
def doOpenSocket (opening : Opening) (σ : State) : State :=
  match opening.fd with
  | none => σ
  | some fd =>
    (σ.setKernel fd (some { nonBlocking := σ.hasReactor })).assignNativeHandle fd opening.tag

/-- `TryOpenSocket()`. It has succeeded if the socket is open afterwards. -/
def tryOpenSocket (opening : Opening) (σ : State) : State :=
  if σ.base.isClosed then σ.doOpenSocket opening else σ

/-- The rest of a call that has tried to open the socket: the check of the endpoint's protocol, the
system call and what is kept of it. -/
def callOpened (matching succeeds : Bool) (effect : Description → Description)
    (keep : State → State) (σ : State) : State :=
  if !σ.base.isClosed && matching then
    match σ.systemCall succeeds effect with
    | some σ => keep σ
    | none => σ
  else σ

/-- `Bind()` -/
def bind (opening : Opening) (matching succeeds : Bool) (σ : State) : State :=
  if σ.isBound then σ
  else (σ.tryOpenSocket opening).callOpened matching succeeds
    (fun description => { description with bound := true }) setBound

/-- `Close()` -/
def close (stale : Deregistration) (succeeds : Bool) (σ : State) : State :=
  if σ.base.isClosed then σ
  else
    -- `OnCloseEvent()`
    let σ := { σ with hasDefaultPeer := false }
    if σ.hasReactor then
      match σ.registration with
      | .idle fd => { σ with base := σ.base.setClosed, registration := .none }.setKernel fd none
      -- the entry is in use, and the socket stays open
      | .executing fd => { σ with registration := .closing fd }
      | .closing _ => σ
      | .none =>
        match stale with
        | .failed | .inUse => σ
        | .free => { σ with base := σ.base.setClosed }
    else
      -- `close(2)` releases the descriptor even if it fails
      let σ' := σ.setKernel σ.handle none
      if succeeds then { σ' with base := σ.base.setClosed } else σ'

/-- `ToggleNonBlockingModeInternal()`. `O_NONBLOCK` is compared with the number that `enable` is and
differs from it if `enable` is set; then the flags are always written. -/
def toggleNonBlockingModeInternal (enable gets sets : Bool) (σ : State) : State :=
  if σ.base.isClosed then σ
  else
    match σ.kernel σ.handle with
    | none => σ
    | some description =>
      if !gets then σ
      else if !enable && !description.nonBlocking then { σ with isNonBlocking := enable }
      else
        match σ.systemCall sets fun description => { description with nonBlocking := enable } with
        | some σ => { σ with isNonBlocking := enable }
        | none => σ

/-- `SetBlocking()` -/
def setBlocking (gets sets : Bool) (σ : State) : State :=
  if σ.isNonBlocking then σ.toggleNonBlockingModeInternal false gets sets else σ

/-- `SetNonBlocking()` -/
def setNonBlocking (gets sets : Bool) (σ : State) : State :=
  if σ.isNonBlocking then σ else σ.toggleNonBlockingModeInternal true gets sets

/-- `SetDefaultPeer()` -/
def setDefaultPeer (opening : Opening) (matching succeeds : Bool) (σ : State) : State :=
  (σ.tryOpenSocket opening).callOpened matching succeeds
    (fun description => { description with peer := true })
    fun σ => { σ with hasDefaultPeer := true }

/-- `RemoveDefaultPeer()` -/
def removeDefaultPeer (succeeds : Bool) (σ : State) : State :=
  if σ.hasDefaultPeer then
    match σ.systemCall succeeds fun description => { description with peer := false } with
    | some σ => { σ with hasDefaultPeer := false }
    | none => σ
  else σ

/-- `IsAsyncPreconditionsMet()` -/
def isAsyncPreconditionsMet (σ : State) : Bool := σ.hasReactor && σ.isNonBlocking

/-- The descriptor is the socket's or that of its entry. -/
def Owns (σ : State) (fd : NativeHandle) : Prop :=
  (σ.base.isClosed = false ∧ σ.handle = fd) ∨ σ.registration.fd? = some fd

instance (σ : State) (fd : NativeHandle) : Decidable (σ.Owns fd) :=
  inferInstanceAs (Decidable (_ ∨ _))

/-- The kernel returns a descriptor that is not open, and the reactor a handle that is valid. -/
def Fresh (σ : State) (fd : NativeHandle) (tag : Option HandlerTag) : Prop :=
  σ.kernel fd = none ∧ tag ≠ some kInvalidHandlerTag

instance (σ : State) (fd : NativeHandle) (tag : Option HandlerTag) : Decidable (σ.Fresh fd tag) :=
  inferInstanceAs (Decidable (_ ∧ _))

/-- What `socket(2)` and the reactor may return. -/
def Allows (σ : State) (opening : Opening) : Prop := ∀ fd ∈ opening.fd, σ.Fresh fd opening.tag

instance (σ : State) (opening : Opening) : Decidable (σ.Allows opening) :=
  inferInstanceAs (Decidable (∀ fd ∈ opening.fd, _))

/-- The step labelled by an action, if it is enabled. -/
def step (σ : State) : Action → Option State
  | .openSocket opening => if σ.Allows opening then some (σ.tryOpenSocket opening) else none
  | .bind opening matching succeeds =>
    if σ.Allows opening then some (σ.bind opening matching succeeds) else none
  | .close stale succeeds => some (σ.close stale succeeds)
  | .setBlocking gets sets => some (σ.setBlocking gets sets)
  | .setNonBlocking gets sets => some (σ.setNonBlocking gets sets)
  | .assignAcceptedHandle fd tag =>
    -- the acceptor asks for `SOCK_NONBLOCK`, whatever the socket is
    if σ.Fresh fd tag then
      some ((σ.setKernel fd (some { nonBlocking := true })).assignNativeHandle fd tag)
    else none
  | .setDefaultPeer opening matching succeeds =>
    if σ.Allows opening then some (σ.setDefaultPeer opening matching succeeds) else none
  | .removeDefaultPeer succeeds => some (σ.removeDefaultPeer succeeds)
  | .beginHandler =>
    match σ.registration with
    | .idle fd => some { σ with registration := .executing fd }
    | .none | .executing _ | .closing _ => none
  | .endHandler =>
    match σ.registration with
    | .executing fd => some { σ with registration := .idle fd }
    | .closing fd => some ({ σ with registration := .none }.setKernel fd none)
    | .none | .idle _ => none
  | .other fd description => if σ.Owns fd then none else some (σ.setKernel fd description)

/-- The kernel's description as the socket keeps it. -/
def cached (σ : State) : Description where
  nonBlocking := σ.isNonBlocking
  bound := σ.isBound
  peer := σ.hasDefaultPeer

/-- An open socket with a reactor has a reactor handle. -/
def HasHandle (σ : State) : Prop :=
  σ.hasReactor = true → σ.base.isClosed = false → σ.base.isReactorHandleValid = true

end State

/-- A socket that was not opened yet, beside any descriptors. -/
def machine : Machine State Action where
  init σ := ∃ hasReactor kernel, σ = { hasReactor, kernel }
  step := State.step

namespace State

variable {σ τ : State} {opening : Opening} {fd : NativeHandle} {tag : Option HandlerTag}
  {matching succeeds : Bool}

/-! ## The state bits -/

/-- To be bound is another bit than to be open. -/
theorem isBound_of_setOpen (h : τ.base.basicSocketState = σ.base.basicSocketState ||| kOpen) :
    τ.isBound = σ.isBound := by
  have hbits : kOpen &&& kBound = 0#8 := by decide
  simp only [isBound, h, BitVec.and_or_distrib_right, hbits, BitVec.or_zero]

theorem isBound_setBound : σ.setBound.isBound = true := by
  have hbits : (σ.base.basicSocketState ||| kBound) &&& kBound = kBound := by
    ext i hi
    simpa using Or.inr
  simp [isBound, setBound, hbits]

/-- A closed socket is not bound. -/
theorem isBound_of_isClosed (h : σ.base.isClosed = true) : σ.isBound = false := by
  have hstate : σ.base.basicSocketState = kClosed := by simpa [BasicSocket.isClosed] using h
  simp [isBound, hstate, kClosed, kBound]

/-- A bound socket is not closed. -/
theorem isClosed_setBound : σ.setBound.base.isClosed = false := by
  refine Bool.eq_false_iff.mpr fun hclosed => ?_
  have hbound := isBound_of_isClosed hclosed
  rw [isBound_setBound] at hbound
  cases hbound

theorem hasHandle_of_isClosed (hclosed : σ.base.isClosed = true) : σ.HasHandle := by
  intro _ hopen
  rw [hclosed] at hopen
  cases hopen

/-! ## System calls -/

@[simp]
theorem setKernel_kernel_self (σ : State) (fd : NativeHandle) (description : Option Description) :
    (σ.setKernel fd description).kernel fd = description := by
  simp [setKernel]

theorem setKernel_kernel_of_ne (σ : State) {fd fd' : NativeHandle} (h : fd' ≠ fd)
    (description : Option Description) :
    (σ.setKernel fd description).kernel fd' = σ.kernel fd' := by
  simp [setKernel, Function.update_of_ne h]

/-- What a system call on the socket's descriptor does. -/
theorem systemCall_eq_some {effect : Description → Description}
    (h : σ.systemCall succeeds effect = some τ) :
    ∃ description, σ.kernel σ.handle = some description ∧ τ = { σ with
      kernel := Function.update σ.kernel σ.handle (some (effect description)) } := by
  obtain ⟨-, h⟩ := Option.ite_none_right_eq_some.mp h
  obtain ⟨description, hdescription, rfl⟩ := Option.map_eq_some_iff.mp h
  exact ⟨description, hdescription, rfl⟩

/-- What a socket keeps of a call: as much as the kernel, and neither its descriptor nor its mode
changes. -/
structure Follows (effect : Description → Description) (keep : State → State) : Prop where
  isClosed (σ : State) : σ.base.isClosed = false → (keep σ).base.isClosed = false
  handle (σ : State) : (keep σ).handle = σ.handle
  kernel (σ : State) : (keep σ).kernel = σ.kernel
  isNonBlocking (σ : State) : (keep σ).isNonBlocking = σ.isNonBlocking
  cached (σ : State) : (keep σ).cached = effect σ.cached
  mode (description : Description) : (effect description).nonBlocking = description.nonBlocking

theorem follows_setBound :
    Follows (fun description => { description with bound := true }) setBound where
  isClosed _ _ := isClosed_setBound
  handle _ := rfl
  kernel _ := rfl
  isNonBlocking _ := rfl
  cached _ := by
    rw [State.cached, isBound_setBound]
    rfl
  mode _ := rfl

theorem follows_setPeer : Follows (fun description => { description with peer := true })
    fun σ => { σ with hasDefaultPeer := true } where
  isClosed _ h := h
  handle _ := rfl
  kernel _ := rfl
  isNonBlocking _ := rfl
  cached _ := rfl
  mode _ := rfl

/-! ## Opening -/

/-- The socket is open with descriptor `fd`; it is non-blocking if it registers or was so before. -/
structure Assigned (σ : State) (fd : NativeHandle) (τ : State) : Prop where
  state : τ.base.basicSocketState = σ.base.basicSocketState ||| kOpen
  handle : τ.handle = fd
  isNonBlocking : τ.isNonBlocking = (σ.registers || σ.isNonBlocking)
  hasDefaultPeer : τ.hasDefaultPeer = σ.hasDefaultPeer
  hasReactor : τ.hasReactor = σ.hasReactor
  kernel : τ.kernel = σ.kernel

/-- `AssignNativeHandle()` assigns the descriptor, or its registration fails and leaves the state of
the socket. -/
theorem assigned_or_failed (σ : State) (fd : NativeHandle) (tag : Option HandlerTag) :
    Assigned σ fd (σ.assignNativeHandle fd tag) ∨ σ.registers = true ∧
      (σ.assignNativeHandle fd tag).base.basicSocketState = σ.base.basicSocketState ∧
      (σ.assignNativeHandle fd tag).hasDefaultPeer = σ.hasDefaultPeer := by
  cases hregisters : σ.registers with
  | false =>
    left
    simp only [assignNativeHandle, hregisters, Bool.false_eq_true, ↓reduceIte]
    exact ⟨rfl, rfl, by simp [hregisters], rfl, rfl, rfl⟩
  | true =>
    cases tag with
    | none =>
      right
      simp only [assignNativeHandle, hregisters, ↓reduceIte]
      exact ⟨trivial, rfl, rfl⟩
    | some tag =>
      left
      simp only [assignNativeHandle, hregisters, ↓reduceIte]
      exact ⟨rfl, rfl, by simp [hregisters], rfl, rfl, rfl⟩

theorem Assigned.isClosed (h : Assigned σ fd τ) : τ.base.isClosed = false := by
  rw [← BasicSocket.isClosed_setOpen σ.base, BasicSocket.isClosed, h.state]
  rfl

/-- A socket that registers is closed. -/
theorem HasHandle.isClosed (h : σ.HasHandle) (hregisters : σ.registers = true) :
    σ.base.isClosed = true := by
  obtain ⟨hreactor, hinvalid⟩ := Bool.and_eq_true_iff.mp hregisters
  refine Bool.not_eq_false _ |>.mp fun hopen => ?_
  simp [h hreactor hopen] at hinvalid

/-! ## Calls that do not open the socket -/

/-- The socket was open before if it is open, with the same handle of the same reactor. -/
structure SameEntry (σ τ : State) : Prop where
  hasReactor : τ.hasReactor = σ.hasReactor
  reactorHandle : τ.base.reactorHandle = σ.base.reactorHandle
  isClosed : τ.base.isClosed = false → σ.base.isClosed = false

theorem SameEntry.refl (σ : State) : SameEntry σ σ := ⟨rfl, rfl, id⟩

theorem SameEntry.trans {ρ : State} (h : SameEntry σ τ) (h' : SameEntry τ ρ) : SameEntry σ ρ :=
  ⟨h'.hasReactor.trans h.hasReactor, h'.reactorHandle.trans h.reactorHandle,
    fun hopen => h.isClosed (h'.isClosed hopen)⟩

theorem sameEntry_systemCall {effect : Description → Description}
    (h : σ.systemCall succeeds effect = some τ) : SameEntry σ τ := by
  obtain ⟨description, -, rfl⟩ := systemCall_eq_some h
  exact ⟨rfl, rfl, id⟩

theorem sameEntry_callOpened {effect : Description → Description} {keep : State → State}
    (hkeep : ∀ σ, σ.base.isClosed = false → SameEntry σ (keep σ)) :
    SameEntry σ (σ.callOpened matching succeeds effect keep) := by
  unfold callOpened
  split
  · rename_i hcond
    split
    · rename_i τ hcall
      have hentry := sameEntry_systemCall hcall
      refine hentry.trans (hkeep τ ?_)
      obtain ⟨description, -, rfl⟩ := systemCall_eq_some hcall
      simpa using (Bool.and_eq_true_iff.mp hcond).1
    · exact .refl σ
  · exact .refl σ

theorem sameEntry_close (stale : Deregistration) : SameEntry σ (σ.close stale succeeds) := by
  unfold State.close
  split
  · exact .refl σ
  · rename_i hclosed
    have hopen : σ.base.isClosed = false := by simpa using hclosed
    dsimp only
    split
    · split
      · exact ⟨rfl, rfl, fun _ => hopen⟩
      · exact ⟨rfl, rfl, fun _ => hopen⟩
      · exact ⟨rfl, rfl, fun _ => hopen⟩
      · split <;> exact ⟨rfl, rfl, fun _ => hopen⟩
    · split <;> exact ⟨rfl, rfl, fun _ => hopen⟩

theorem sameEntry_toggle (enable gets sets : Bool) :
    SameEntry σ (σ.toggleNonBlockingModeInternal enable gets sets) := by
  unfold toggleNonBlockingModeInternal
  split
  · exact .refl σ
  split
  · exact .refl σ
  split
  · exact .refl σ
  split
  · exact ⟨rfl, rfl, id⟩
  · split
    · rename_i hcall
      exact (sameEntry_systemCall hcall).trans ⟨rfl, rfl, id⟩
    · exact .refl σ

theorem sameEntry_removeDefaultPeer : SameEntry σ (σ.removeDefaultPeer succeeds) := by
  unfold State.removeDefaultPeer
  split
  · split
    · rename_i hcall
      exact (sameEntry_systemCall hcall).trans ⟨rfl, rfl, id⟩
    · exact .refl σ
  · exact .refl σ

/-! ## Reactor handles -/

theorem HasHandle.of_sameEntry (h : σ.HasHandle) (hentry : SameEntry σ τ) : τ.HasHandle := by
  intro hreactor hopen
  rw [BasicSocket.isReactorHandleValid, hentry.reactorHandle]
  exact h (hentry.hasReactor ▸ hreactor) (hentry.isClosed hopen)

/-- An assigned descriptor with a valid handle, if the socket registers. -/
theorem hasHandle_assignNativeHandle (htag : tag ≠ some kInvalidHandlerTag)
    (hclosed : σ.registers = true → σ.base.isClosed = true) :
    (σ.assignNativeHandle fd tag).HasHandle := by
  cases hregisters : σ.registers with
  | false =>
    simp only [assignNativeHandle, hregisters, Bool.false_eq_true, ↓reduceIte]
    intro hreactor _
    -- a socket with a reactor that does not register has a handle
    have hreactor' : σ.hasReactor = true := hreactor
    have hvalid : σ.base.isReactorHandleValid = true := by
      simpa [State.registers, hreactor'] using hregisters
    exact hvalid
  | true =>
    cases tag with
    | none =>
      simp only [assignNativeHandle, hregisters, ↓reduceIte]
      exact hasHandle_of_isClosed (hclosed hregisters)
    | some tag =>
      simp only [assignNativeHandle, hregisters, ↓reduceIte]
      intro _ _
      simpa [BasicSocket.isReactorHandleValid, BasicSocket.setOpen] using htag

theorem HasHandle.tryOpenSocket (h : σ.HasHandle) (hallows : σ.Allows opening) :
    (σ.tryOpenSocket opening).HasHandle := by
  unfold State.tryOpenSocket doOpenSocket
  split
  · rename_i hclosed
    split
    · exact h
    · rename_i fd hfd
      exact hasHandle_assignNativeHandle (hallows fd hfd).2 fun _ => hclosed
  · exact h

/-- Every step keeps the reactor handle of an open socket. -/
theorem HasHandle.step (h : σ.HasHandle) {a : Action} (hstep : σ.step a = some τ) :
    τ.HasHandle := by
  cases a with
  | openSocket opening =>
    obtain ⟨hallows, ⟨⟩⟩ := Option.ite_none_right_eq_some.mp hstep
    exact h.tryOpenSocket hallows
  | bind opening matching succeeds =>
    obtain ⟨hallows, ⟨⟩⟩ := Option.ite_none_right_eq_some.mp hstep
    unfold State.bind
    split
    · exact h
    · exact (h.tryOpenSocket hallows).of_sameEntry
        (sameEntry_callOpened fun _ hopen => ⟨rfl, rfl, fun _ => hopen⟩)
  | setDefaultPeer opening matching succeeds =>
    obtain ⟨hallows, ⟨⟩⟩ := Option.ite_none_right_eq_some.mp hstep
    exact (h.tryOpenSocket hallows).of_sameEntry
      (sameEntry_callOpened fun _ _ => ⟨rfl, rfl, id⟩)
  | assignAcceptedHandle fd tag =>
    obtain ⟨hfresh, ⟨⟩⟩ := Option.ite_none_right_eq_some.mp hstep
    exact hasHandle_assignNativeHandle hfresh.2 h.isClosed
  | close stale succeeds =>
    obtain rfl := Option.some.inj hstep
    exact h.of_sameEntry (sameEntry_close stale)
  | setBlocking gets sets =>
    obtain rfl := Option.some.inj hstep
    unfold State.setBlocking
    split
    · exact h.of_sameEntry (sameEntry_toggle false gets sets)
    · exact h
  | setNonBlocking gets sets =>
    obtain rfl := Option.some.inj hstep
    unfold State.setNonBlocking
    split
    · exact h
    · exact h.of_sameEntry (sameEntry_toggle true gets sets)
  | removeDefaultPeer succeeds =>
    obtain rfl := Option.some.inj hstep
    exact h.of_sameEntry sameEntry_removeDefaultPeer
  | beginHandler =>
    simp only [State.step] at hstep
    split at hstep
    · obtain rfl := Option.some.inj hstep
      exact h
    all_goals cases hstep
  | endHandler =>
    simp only [State.step] at hstep
    split at hstep
    · obtain rfl := Option.some.inj hstep
      exact h
    · obtain rfl := Option.some.inj hstep
      exact h
    all_goals cases hstep
  | other fd description =>
    obtain ⟨-, ⟨⟩⟩ := Option.ite_none_left_eq_some.mp hstep
    exact h

end State

end Asrt.Socket.KernelAgreement
