import Asrt.Socket.PacketRing

/-!
# Accesses to the packet ring

When a packet socket (`socket/basic_packet_socket.hpp`, `impl/basic_packet_socket.ipp`) looks up a
block or advances its index, the ring has to be there. `Open()` sets it up and `Close()` takes it
down, without the socket's mutex. The reactor's event tests that it is there before it touches it;
the loop of `PollReceiveBlockSync()`, which runs without the mutex, and a `ReceiveBlockAsync()` that
finds a block pending do not.

The loop and the event are cut at each test and at each access, so that `Close()` may come between
any two of them: the mutex, which the event holds, keeps only the other functions away. What
`ReceiveBlockAsync()` tests before its access, `Close()` leaves as it is. The completion handlers
may call any function. Whether a block is ready is an argument.

## Main definitions

* `State`: the socket, with the threads in `PollReceiveBlockSync()` and the accesses so far.
* `Access.Safe`: what an access requires.

## Main results

* `ring_access_iff`: when all accesses are safe.
-/

namespace Asrt.Socket.PacketRing.Safety

/-- `PacketMmapMode` -/
inductive PacketMmapMode
  | kDisabled
  | kMmapRx
  | kMmapTx
  | kMmapTxRx
deriving DecidableEq, Repr

/-- Where a thread in `PollReceiveBlockSync()` is. -/
inductive PollPhase
  /-- At the top of the loop. -/
  | looking
  /-- In the completion handler. -/
  | handling
deriving DecidableEq, Repr

/-- Where the reactor's event is in `OnReactorEventImpl()` and `HandleBlockReceive()`. -/
inductive EventPhase
  /-- Before `IsPacketMmapEnabled()`. -/
  | testing
  /-- Before the current block is looked up. -/
  | looking
  /-- Before the index is advanced; `handler_backup` is empty or not. -/
  | advancing (handler : Bool)
  /-- Before the block at the new index is looked up. -/
  | checking (handler : Bool)
  /-- In the completion handler, with the mutex released. -/
  | calling (handler : Bool)
deriving DecidableEq, Repr

/-- The fields that an access to the ring reads, as they are at that moment. -/
structure Access where
  /-- `ring_.rd` is not null. -/
  rd : Bool
  /-- `total_block_num_` -/
  totalBlockNum : ℕ
  /-- `current_block_index_` -/
  currentBlockIndex : ℕ
deriving DecidableEq, Repr

/-- The ring is there and the index is one of its blocks. -/
structure Access.Safe (access : Access) : Prop where
  rd : access.rd = true
  total : access.totalBlockNum ≠ 0
  index : access.currentBlockIndex < access.totalBlockNum

/-- `BasicPacketSocket` -/
structure State where
  /-- The base socket is open. -/
  isOpen : Bool := false
  /-- `packet_mmap_mode_` -/
  packetMmapMode : PacketMmapMode := .kDisabled
  /-- `ring_.rd` is not null. -/
  rd : Bool := false
  /-- `total_block_num_` -/
  totalBlockNum : ℕ := kDefaultBlockNum
  /-- `current_block_index_` -/
  currentBlockIndex : ℕ := 0
  /-- `recv_ongoing_` -/
  recvOngoing : Bool := false
  /-- `packet_mmap_block_read_pending_` -/
  packetMmapBlockReadPending : Bool := false
  /-- `recv_block_completion_handler_` is not empty. -/
  recvBlockCompletionHandler : Bool := false
  /-- The threads in `PollReceiveBlockSync()`. -/
  pollers : List PollPhase := []
  /-- The read event that the reactor is handling. -/
  event : Option EventPhase := none
  /-- Ghost: the accesses to the ring. -/
  accesses : List Access := []

/-- The steps of the users of the socket and of the reactor. -/
inductive Action
  /-- `Open()`; `opened` is the outcome of the base socket's `Open()` and `mapped` that of
  `SetupPacketMmap()`. -/
  | openSocket (mode : PacketMmapMode) (opened mapped : Bool)
  /-- `Close()`; the base socket may stay open. -/
  | close (closed : Bool)
  /-- `ReceiveBlockAsync()` -/
  | receiveBlockAsync
  /-- A read event, up to the test of `IsPacketMmapEnabled()`. -/
  | event
  /-- The event tests that the ring is there. -/
  | eventTest
  /-- It looks up the current block. -/
  | eventLook (ready : Bool)
  /-- It advances the index, in `IncrementAndCheckNextBlockAvailable()`. -/
  | eventAdvance
  /-- It looks up the block there. -/
  | eventCheck (nextReady : Bool)
  /-- It calls the completion handler, which returns. -/
  | eventCall
  /-- A thread enters the loop of `PollReceiveBlockSync()`, unless there is no `eventfd()`. -/
  | pollStart (eventfd : Bool)
  /-- It looks up the current block, and waits if that is not ready. -/
  | pollLook (j : ℕ) (ready : Bool)
  /-- Its completion handler returns. -/
  | pollAdvance (j : ℕ)
  /-- It leaves the loop, on request or after an error of `poll()`. -/
  | pollStop (j : ℕ)
deriving DecidableEq, Repr

namespace State

/-- The fields that an access to the ring reads. -/
def view (σ : State) : Access := ⟨σ.rd, σ.totalBlockNum, σ.currentBlockIndex⟩

/-- `IsPacketMmapEnabled()` -/
def isPacketMmapEnabled (σ : State) : Bool := σ.packetMmapMode ≠ .kDisabled

/-- An access to the ring. -/
def access (σ : State) : State := { σ with accesses := σ.accesses ++ [σ.view] }

/-- `GetCurrentBlockUnsafe()` -/
def getCurrentBlockUnsafe (σ : State) : State := σ.access

/-- `IncrementBlockIndex()` -/
def incrementBlockIndex (σ : State) : State :=
  { σ.access with currentBlockIndex := (σ.currentBlockIndex + 1) % σ.totalBlockNum }

/-- `Open()`. The index is not reset. -/
def openSocket (σ : State) (mode : PacketMmapMode) (opened mapped : Bool) : State :=
  if σ.isOpen || !opened then σ
  else
    let σ := { σ with isOpen := true }
    if mode = .kDisabled then { σ with packetMmapMode := mode }
    else if mapped then
      { σ with packetMmapMode := mode, totalBlockNum := kDefaultBlockNum, rd := true }
    else σ

/-- `Close()`, with `OnCloseEvent()`. The pending block is not reset. -/
def close (σ : State) (closed : Bool) : State :=
  if !σ.isOpen then σ
  else { σ with
    isOpen := !closed
    recvOngoing := false
    packetMmapMode := .kDisabled
    totalBlockNum := 0
    currentBlockIndex := 0
    rd := false }

/-- `CheckRecvPossible()` -/
def checkRecvPossible (σ : State) : Bool := σ.isOpen && !σ.recvOngoing

/-- `ReceiveBlockAsync()` -/
def receiveBlockAsync (σ : State) : State :=
  if σ.packetMmapBlockReadPending then
    -- a job will deliver the block
    { σ with packetMmapBlockReadPending := false }.getCurrentBlockUnsafe
  else if σ.checkRecvPossible then
    { σ with recvOngoing := true, recvBlockCompletionHandler := true }
  else σ

/-- The request of `ReceiveBlockAsync()` is taken up. -/
def takeRequest (σ : State) : State :=
  { σ with recvBlockCompletionHandler := false, recvOngoing := false }

/-- `OnReactorEvent()` and `OnReactorEventImpl()` for a read event, up to the test of
`IsPacketMmapEnabled()`. -/
def onReactorEvent (σ : State) : State :=
  if σ.isOpen && σ.recvOngoing then { σ with event := some .testing } else σ

/-- `HandleBlockReceive()` up to `IncrementAndCheckNextBlockAvailable()`. A block that is not ready
ends it. -/
def handleBlockReceive (σ : State) (ready : Bool) : State :=
  let handler := σ.recvBlockCompletionHandler
  let σ := σ.getCurrentBlockUnsafe
  if ready then { σ.takeRequest with event := some (.advancing handler) }
  else { σ with event := none }

/-- The rest of `OnReactorEventImpl()`, from the test of `IsPacketMmapEnabled()` on. Without a ring
the event goes to `HandleReceive()`, whose handler is empty; a call of an empty handler ends the
program. -/
def eventStep (σ : State) : EventPhase → Action → Option State
  | .testing, .eventTest =>
    if σ.isPacketMmapEnabled then some { σ with event := some .looking } else none
  | .looking, .eventLook ready => some (σ.handleBlockReceive ready)
  | .advancing handler, .eventAdvance =>
    some { σ.incrementBlockIndex with event := some (.checking handler) }
  | .checking handler, .eventCheck nextReady =>
    let σ := σ.getCurrentBlockUnsafe
    some { σ with
      packetMmapBlockReadPending := σ.packetMmapBlockReadPending || nextReady
      event := some (.calling handler) }
  | .calling handler, .eventCall => if handler then some { σ with event := none } else none
  | _, _ => none

/-- The event holds the mutex. -/
def isLocked (σ : State) : Bool :=
  match σ.event with
  | none | some (.calling _) => false
  | some _ => true

/-- `PollReceiveBlockSync()` up to its loop. -/
def pollStart (σ : State) (eventfd : Bool) : State :=
  if σ.checkRecvPossible then
    { σ with
      recvOngoing := true
      pollers := if eventfd then σ.pollers ++ [.looking] else σ.pollers }
  else σ

/-- The step labelled by an action, if it is enabled. -/
def step (σ : State) : Action → Option State
  | .openSocket mode opened mapped => some (σ.openSocket mode opened mapped)
  | .close closed => some (σ.close closed)
  | .receiveBlockAsync => if σ.isLocked then none else some σ.receiveBlockAsync
  | .event => if σ.event.isSome then none else some σ.onReactorEvent
  | .pollStart eventfd => if σ.isLocked then none else some (σ.pollStart eventfd)
  | .pollLook j ready =>
    if σ.pollers[j]? = some .looking then
      let σ := σ.getCurrentBlockUnsafe
      some (if ready then { σ with pollers := σ.pollers.set j .handling } else σ)
    else none
  | .pollAdvance j =>
    if σ.pollers[j]? = some .handling then
      some { σ with pollers := σ.pollers.set j .looking }.incrementBlockIndex
    else none
  | .pollStop j =>
    if σ.pollers[j]? = some .looking ∧ σ.isLocked = false then
      some { σ with pollers := σ.pollers.eraseIdx j, recvOngoing := false }
    else none
  | a => σ.event.bind fun phase => σ.eventStep phase a

end State

/-- The socket as a machine. -/
def machine : ToMathlib.Machine State Action where
  init σ := σ = {}
  step := State.step

/-- All accesses so far were safe. -/
def AccessesSafe (σ : State) : Prop := ∀ access ∈ σ.accesses, access.Safe

/-- The step makes an access only while the ring is set up. -/
def InUse (σ : State) : Action → Prop
  | .receiveBlockAsync => σ.packetMmapBlockReadPending = true → σ.isPacketMmapEnabled = true
  | .pollLook _ _ | .pollAdvance _ | .eventLook _ | .eventAdvance | .eventCheck _ =>
    σ.isPacketMmapEnabled = true
  | .openSocket .. | .close _ | .event | .eventTest | .eventCall | .pollStart _ | .pollStop _ =>
    True

/-! ## The ring while it is set up -/

/-- The ring is there exactly while the mode says so, and then the index is one of its blocks. The
socket is open then; else the index is where it starts. -/
structure RingOk (σ : State) : Prop where
  closed : σ.isOpen = false → σ.isPacketMmapEnabled = false
  disabled : σ.isPacketMmapEnabled = false → σ.rd = false ∧ σ.currentBlockIndex = 0
  enabled : σ.isPacketMmapEnabled = true →
    σ.rd = true ∧ σ.totalBlockNum = kDefaultBlockNum ∧ σ.currentBlockIndex < kDefaultBlockNum

variable {σ τ : State} {a : Action}

/-- An access is safe exactly while the ring is set up. -/
theorem RingOk.safe_iff (h : RingOk σ) : σ.view.Safe ↔ σ.isPacketMmapEnabled = true := by
  constructor
  · intro hsafe
    by_contra hdisabled
    have hnull := (h.disabled (by simpa using hdisabled)).1
    exact absurd hsafe.rd (by simp [State.view, hnull])
  · intro henabled
    obtain ⟨hrd, htotal, hindex⟩ := h.enabled henabled
    have hpos : σ.totalBlockNum ≠ 0 := by
      rw [htotal]
      decide
    rw [← htotal] at hindex
    exact ⟨hrd, hpos, hindex⟩

/-- What does not touch the ring keeps it. -/
theorem RingOk.of_eq (h : RingOk σ) (hopen : τ.isOpen = σ.isOpen)
    (hmode : τ.packetMmapMode = σ.packetMmapMode) (hview : τ.view = σ.view) : RingOk τ := by
  have henabled : τ.isPacketMmapEnabled = σ.isPacketMmapEnabled := by
    rw [State.isPacketMmapEnabled, hmode, State.isPacketMmapEnabled]
  obtain ⟨hrd, htotal, hindex⟩ := Access.mk.inj hview
  refine ⟨?_, ?_, ?_⟩
  · rw [hopen, henabled]
    exact h.closed
  · rw [henabled, hrd, hindex]
    exact h.disabled
  · rw [henabled, hrd, htotal, hindex]
    exact h.enabled

/-- The index may be advanced while the ring is set up. -/
theorem RingOk.incrementBlockIndex (h : RingOk σ) (henabled : σ.isPacketMmapEnabled = true) :
    RingOk σ.incrementBlockIndex := by
  obtain ⟨hrd, htotal, -⟩ := h.enabled henabled
  have henabled' : σ.incrementBlockIndex.isPacketMmapEnabled = true := henabled
  refine ⟨h.closed, ?_, fun _ => ⟨hrd, htotal, ?_⟩⟩
  · rw [henabled']
    exact fun hdisabled => absurd hdisabled (by simp)
  · simp only [State.incrementBlockIndex, htotal]
    exact mod_kDefaultBlockNum_lt _

theorem RingOk.openSocket (h : RingOk σ) (mode : PacketMmapMode) (opened mapped : Bool) :
    RingOk (σ.openSocket mode opened mapped) := by
  simp only [State.openSocket]
  split
  · exact h
  rename_i hopens
  -- the socket was closed, so there is no ring yet
  have hclosed : σ.isOpen = false := by
    cases hopen : σ.isOpen with
    | false => rfl
    | true => simp [hopen] at hopens
  have hdisabled := h.closed hclosed
  obtain ⟨hnull, hindex⟩ := h.disabled hdisabled
  split
  · rename_i hmode
    subst hmode
    exact ⟨fun _ => rfl, fun _ => ⟨hnull, hindex⟩, fun henabled => by cases henabled⟩
  rename_i hmode
  split
  · refine ⟨fun hopen => (by cases hopen), ?_, fun _ => ⟨rfl, rfl, ?_⟩⟩
    · intro hdisabled
      simp [State.isPacketMmapEnabled, hmode] at hdisabled
    · simp only [hindex]
      decide
  · refine ⟨fun hopen => (by cases hopen), fun _ => ⟨hnull, hindex⟩, ?_⟩
    intro henabled
    rw [State.isPacketMmapEnabled] at henabled hdisabled
    rw [hdisabled] at henabled
    cases henabled

theorem RingOk.close (h : RingOk σ) (closed : Bool) : RingOk (σ.close closed) := by
  simp only [State.close]
  split
  · exact h
  · exact ⟨fun _ => rfl, fun _ => ⟨rfl, rfl⟩, fun henabled => by cases henabled⟩

/-! ## Accesses -/

theorem accessesSafe_access : AccessesSafe σ.access ↔ AccessesSafe σ ∧ σ.view.Safe := by
  simp only [AccessesSafe, State.access, List.forall_mem_append, List.forall_mem_singleton]

/-- An access to the ring after safe accesses. -/
theorem RingOk.accessesSafe_access_iff (h : RingOk σ) (hsafe : AccessesSafe σ) :
    AccessesSafe σ.access ↔ σ.isPacketMmapEnabled = true := by
  rw [accessesSafe_access, and_iff_right hsafe, h.safe_iff]

/-- A step of the event after its test makes a safe access if and only if the ring is still set up,
and keeps it then. -/
theorem RingOk.eventStep (h : RingOk σ) (hsafe : AccessesSafe σ) {phase : EventPhase}
    (hτ : σ.eventStep phase a = some τ) :
    (AccessesSafe τ ↔ InUse σ a) ∧ (InUse σ a → RingOk τ) := by
  have hiff := h.accessesSafe_access_iff hsafe
  cases phase with
  | testing =>
    cases a with
    | eventTest =>
      simp only [State.eventStep] at hτ
      split at hτ
      · obtain rfl := Option.some.inj hτ
        exact ⟨iff_of_true hsafe trivial, fun _ => h.of_eq rfl rfl rfl⟩
      · cases hτ
    | _ => cases hτ
  | looking =>
    cases a with
    | eventLook ready =>
      obtain rfl := Option.some.inj hτ
      simp only [State.handleBlockReceive]
      split
      · exact ⟨hiff, fun _ => h.of_eq rfl rfl rfl⟩
      · exact ⟨hiff, fun _ => h.of_eq rfl rfl rfl⟩
    | _ => cases hτ
  | advancing handler =>
    cases a with
    | eventAdvance =>
      obtain rfl := Option.some.inj hτ
      exact ⟨hiff, fun henabled => (h.incrementBlockIndex henabled).of_eq rfl rfl rfl⟩
    | _ => cases hτ
  | checking handler =>
    cases a with
    | eventCheck nextReady =>
      obtain rfl := Option.some.inj hτ
      exact ⟨hiff, fun _ => h.of_eq rfl rfl rfl⟩
    | _ => cases hτ
  | calling handler =>
    cases a with
    | eventCall =>
      simp only [State.eventStep] at hτ
      split at hτ
      · obtain rfl := Option.some.inj hτ
        exact ⟨iff_of_true hsafe trivial, fun _ => h.of_eq rfl rfl rfl⟩
      · cases hτ
    | _ => cases hτ

/-- After safe accesses, a step makes safe accesses only if and only if it makes them while the ring
is set up; and then it keeps the ring. -/
theorem RingOk.step (h : RingOk σ) (hsafe : AccessesSafe σ) (hτ : σ.step a = some τ) :
    (AccessesSafe τ ↔ InUse σ a) ∧ (InUse σ a → RingOk τ) := by
  cases a with
  | openSocket mode opened mapped =>
    obtain rfl := Option.some.inj hτ
    refine ⟨iff_of_true ?_ trivial, fun _ => h.openSocket mode opened mapped⟩
    simp only [State.openSocket]
    split_ifs
    all_goals exact hsafe
  | close closed =>
    obtain rfl := Option.some.inj hτ
    refine ⟨iff_of_true ?_ trivial, fun _ => h.close closed⟩
    simp only [State.close]
    split_ifs
    all_goals exact hsafe
  | receiveBlockAsync =>
    simp only [State.step] at hτ
    split at hτ
    · cases hτ
    obtain rfl := Option.some.inj hτ
    simp only [State.receiveBlockAsync, InUse]
    split
    · -- the pending block is looked up
      rename_i hpending
      have hreset : RingOk { σ with packetMmapBlockReadPending := false } := h.of_eq rfl rfl rfl
      refine ⟨?_, fun _ => hreset.of_eq rfl rfl rfl⟩
      rw [forall_prop_of_true hpending]
      exact hreset.accessesSafe_access_iff hsafe
    · rename_i hpending
      split
      · exact ⟨iff_of_true hsafe (by simp [hpending]), fun _ => h.of_eq rfl rfl rfl⟩
      · exact ⟨iff_of_true hsafe (by simp [hpending]), fun _ => h⟩
  | event =>
    simp only [State.step] at hτ
    split at hτ
    · cases hτ
    obtain rfl := Option.some.inj hτ
    simp only [State.onReactorEvent]
    split
    · exact ⟨iff_of_true hsafe trivial, fun _ => h.of_eq rfl rfl rfl⟩
    · exact ⟨iff_of_true hsafe trivial, fun _ => h⟩
  | pollStart eventfd =>
    simp only [State.step] at hτ
    split at hτ
    · cases hτ
    obtain rfl := Option.some.inj hτ
    simp only [State.pollStart]
    split
    · exact ⟨iff_of_true hsafe trivial, fun _ => h.of_eq rfl rfl rfl⟩
    · exact ⟨iff_of_true hsafe trivial, fun _ => h⟩
  | pollLook j ready =>
    simp only [State.step] at hτ
    split at hτ
    · -- nothing is tested before the look-up
      have hiff := h.accessesSafe_access_iff hsafe
      have hτ := Option.some.inj hτ
      split at hτ
      · rw [← hτ]
        exact ⟨hiff, fun _ => h.of_eq rfl rfl rfl⟩
      · rw [← hτ]
        exact ⟨hiff, fun _ => h.of_eq rfl rfl rfl⟩
    · cases hτ
  | pollAdvance j =>
    simp only [State.step] at hτ
    split at hτ
    · obtain rfl := Option.some.inj hτ
      -- the handler may have closed the socket
      have hreturned : RingOk { σ with pollers := σ.pollers.set j .looking } :=
        h.of_eq rfl rfl rfl
      exact ⟨hreturned.accessesSafe_access_iff hsafe, hreturned.incrementBlockIndex⟩
    · cases hτ
  | pollStop j =>
    simp only [State.step] at hτ
    split at hτ
    · obtain rfl := Option.some.inj hτ
      exact ⟨iff_of_true hsafe trivial, fun _ => h.of_eq rfl rfl rfl⟩
    · cases hτ
  | eventTest | eventLook _ | eventAdvance | eventCheck _ | eventCall =>
    obtain ⟨phase, -, hτ⟩ := Option.bind_eq_some_iff.mp hτ
    exact h.eventStep hsafe hτ

/-! ## Runs -/

/-- In every run of a packet socket all accesses to the ring are safe if and only if the loop of
`PollReceiveBlockSync()` and the event that has tested the ring look up and advance, and
`ReceiveBlockAsync()` looks up a pending block, only while the ring is set up. -/
theorem ring_access_iff (as : List Action) :
    machine.Along (fun _ _ τ => AccessesSafe τ) {} as ↔
      machine.Along (fun σ a _ => InUse σ a) {} as := by
  have hinit : RingOk {} ∧ AccessesSafe {} := by
    refine ⟨⟨fun _ => rfl, fun _ => ⟨rfl, rfl⟩, fun henabled => by cases henabled⟩, ?_⟩
    simp [AccessesSafe]
  refine ToMathlib.Machine.along_iff_of_invariant
    (I := fun σ => RingOk σ ∧ AccessesSafe σ) hinit ?_ ?_
  · rintro σ a τ ⟨hok, hsafe⟩ hτ
    exact (hok.step hsafe hτ).1
  · rintro σ a τ ⟨hok, hsafe⟩ hτ hsafe'
    obtain ⟨hiff, hkeep⟩ := hok.step hsafe hτ
    exact ⟨hkeep (hiff.mp hsafe'), hsafe'⟩

/-- `Close()` is called from the completion handler of the loop, which then advances the index in a
ring of no blocks. -/
theorem not_ring_access :
    ¬ machine.Along (fun _ _ τ => AccessesSafe τ) {} [.openSocket .kMmapRx true true,
      .pollStart true, .pollLook 0 true, .close true, .pollAdvance 0] := by
  intro h
  have hopened := (h _ rfl).2
  have hstarted := (hopened _ rfl).2
  have hlooked := (hstarted _ rfl).2
  have hclosed := (hlooked _ rfl).2
  have hadvanced := (hclosed _ rfl).1
  have hsafe := hadvanced ⟨false, 0, 0⟩ (by decide)
  exact hsafe.total rfl

/-- Nor is the event safe, which has tested the ring: `Close()` comes before the access. -/
example :
    (machine.run (fun _ _ => True) {} [.openSocket .kMmapRx true true, .receiveBlockAsync, .event,
      .eventTest, .close false, .eventLook true]).map State.accesses = some [⟨false, 0, 0⟩] := by
  decide

end Asrt.Socket.PacketRing.Safety
