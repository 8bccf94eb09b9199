import Asrt.ToMathlib.Machine
import Mathlib.Data.List.Basic
import Mathlib.Logic.Function.Basic

/-!
# The packet ring of a packet socket

`BasicPacketSocket` (`socket/basic_packet_socket.hpp`, `impl/basic_packet_socket.ipp`) reads blocks
of packets from a ring that it shares with the kernel. The kernel fills a block that belongs to it
and marks it ready; the socket passes the block to a completion handler and gives it back with
`Consume()`.

`PollReceiveBlockSync()` does so in a loop (`Polling`). The asynchronous path (`Async`) is
`ReceiveBlockAsync()`, called once by the client and then once by each completion handler, with
`HandleBlockReceive()` on the events of the reactor, which are level-triggered. If the block after
the one that is delivered is ready too, the next request is completed by a job of the executor. That
job neither consumes the block nor advances the index, so the same block is delivered once more by
the next event.

The ghost state counts how often a block was filled, and records which fill of which block was
delivered and which was returned to the kernel.

## Main results

- `async_blocks_delivered`: the asynchronous path delivers the blocks as the polling path does, in
  the runs in which blocks become ready one at a time.
-/

namespace Asrt.Socket.PacketRing

/-- `kDefaultBlockNum`, the number of blocks in the ring. -/
def kDefaultBlockNum : ℕ := 64

/-- A block with its contents: `fill` counts the times it was filled. -/
structure Block where
  index : ℕ
  fill : ℕ
deriving DecidableEq, Repr

/-- The ring. -/
structure Ring where
  /-- The block belongs to the user (`TP_STATUS_USER`). -/
  ready : ℕ → Bool := fun _ => false
  /-- Ghost: how often the kernel has filled the block. -/
  fills : ℕ → ℕ := fun _ => 0
  /-- Ghost: the blocks that were passed to a completion handler. -/
  delivered : List Block := []
  /-- Ghost: the blocks that were returned to the kernel. -/
  consumed : List Block := []

namespace Ring

/-- The block at an index, with its present contents. -/
def block (ring : Ring) (i : ℕ) : Block := ⟨i, ring.fills i⟩

/-- The kernel has filled a block and marks it ready. -/
def mark (ring : Ring) (i : ℕ) : Ring :=
  { ring with
    ready := Function.update ring.ready i true
    fills := Function.update ring.fills i (ring.fills i + 1) }

/-- A block is passed to a completion handler. -/
def deliver (ring : Ring) (i : ℕ) : Ring :=
  { ring with delivered := ring.delivered ++ [ring.block i] }

/-- `Consume()` -/
def consume (ring : Ring) (i : ℕ) : Ring :=
  { ring with
    ready := Function.update ring.ready i false
    consumed := ring.consumed ++ [ring.block i] }

end Ring

/-- `IncrementBlockIndex()` -/
def incrementBlockIndex (currentBlockIndex : ℕ) : ℕ := (currentBlockIndex + 1) % kDefaultBlockNum

/-! ## Ring order -/

/-- The first blocks in ring order: every block once with each of its fills. -/
def ringOrder (m : ℕ) : List Block :=
  (List.range m).map fun k => ⟨k % kDefaultBlockNum, k / kDefaultBlockNum + 1⟩

theorem ringOrder_succ (m : ℕ) :
    ringOrder (m + 1) = ringOrder m ++ [⟨m % kDefaultBlockNum, m / kDefaultBlockNum + 1⟩] := by
  simp [ringOrder, List.range_succ]

/-- Of two beginnings of the ring order, one is a beginning of the other. -/
theorem ringOrder_isPrefix {m m' : ℕ} (h : m ≤ m') : ringOrder m <+: ringOrder m' := by
  induction m', h using Nat.le_induction with
  | base => exact ⟨[], List.append_nil _⟩
  | succ m' _ ih =>
    rw [ringOrder_succ]
    exact ih.trans (List.prefix_append _ _)

/-- How often a block is among the first `m` in ring order. -/
def visits (m i : ℕ) : ℕ := (m + (kDefaultBlockNum - 1) - i) / kDefaultBlockNum

theorem visits_succ {m i : ℕ} (hi : i < kDefaultBlockNum) :
    visits (m + 1) i = visits m i + if m % kDefaultBlockNum = i then 1 else 0 := by
  by_cases hmod : m % kDefaultBlockNum = i
  · rw [if_pos hmod]
    simp only [visits, kDefaultBlockNum] at *
    omega
  · rw [if_neg hmod]
    simp only [visits, kDefaultBlockNum] at *
    omega

theorem visits_self (m : ℕ) : visits m (m % kDefaultBlockNum) = m / kDefaultBlockNum := by
  simp only [visits, kDefaultBlockNum]
  omega

theorem visits_mono {m m' : ℕ} (h : m ≤ m') (i : ℕ) : visits m i ≤ visits m' i :=
  Nat.div_le_div_right (by omega)

theorem mod_kDefaultBlockNum_lt (m : ℕ) : m % kDefaultBlockNum < kDefaultBlockNum :=
  Nat.mod_lt _ (by decide)

theorem incrementBlockIndex_mod (m : ℕ) :
    incrementBlockIndex (m % kDefaultBlockNum) = (m + 1) % kDefaultBlockNum := by
  simp only [incrementBlockIndex, kDefaultBlockNum]
  omega

/-! ## Reading the ring in order -/

namespace Ring

variable {ring ring' : Ring} {running : Option ℕ}

/-- The ring is read in order. `running` is the block whose completion handler is running; the other
blocks that were delivered were returned, in the same order. A block was filled as often as it was
returned, and once more if it is ready. -/
structure Kept (ring : Ring) (running : Option ℕ) : Prop where
  inOrder : ring.delivered = ringOrder ring.delivered.length
  returned : ring.consumed ++ (running.map ring.block).toList = ring.delivered
  fills : ∀ i < kDefaultBlockNum,
    ring.fills i = visits ring.consumed.length i + (ring.ready i).toNat
  held : ∀ i ∈ running, i = ring.consumed.length % kDefaultBlockNum ∧ ring.ready i = true

/-- Nothing was read yet. -/
theorem Kept.empty : Kept {} none where
  inOrder := rfl
  returned := rfl
  fills i hi := by
    simp only [visits, kDefaultBlockNum] at *
    have hzero : (0 + (64 - 1) - i) / 64 = 0 := by omega
    simpa using hzero.symm
  held := nofun

/-- The kernel may mark any block that belongs to it. -/
theorem Kept.mark (h : ring.Kept running) {i : ℕ} (hready : ring.ready i = false) :
    (ring.mark i).Kept running where
  inOrder := h.inOrder
  returned := by
    rw [Ring.mark, ← h.returned]
    cases running with
    | none => rfl
    | some j =>
      -- the block that is being handled belongs to the user, so it is not the one that is filled
      have hne : j ≠ i := by
        rintro rfl
        simp [(h.held j rfl).2] at hready
      simp [block, hne]
  fills j hj := by
    by_cases hij : j = i
    · subst hij
      have hold := h.fills j hj
      simp only [hready, Bool.toNat_false] at hold
      simp [Ring.mark, hold]
    · simpa [Ring.mark, hij] using h.fills j hj
  held j hj := by
    obtain ⟨hindex, hheld⟩ := h.held j hj
    refine ⟨hindex, ?_⟩
    simp only [Ring.mark, Function.update_apply]
    split
    · rfl
    · exact hheld

/-- While no handler is running, everything that was delivered was returned. -/
theorem Kept.consumed_eq (h : ring.Kept none) : ring.consumed = ring.delivered := by
  simpa using h.returned

/-- The block whose turn it is has a new fill, if it is ready. -/
theorem Kept.block_eq (h : ring.Kept none)
    (hready : ring.ready (ring.delivered.length % kDefaultBlockNum) = true) :
    ring.block (ring.delivered.length % kDefaultBlockNum) =
      ⟨ring.delivered.length % kDefaultBlockNum,
        ring.delivered.length / kDefaultBlockNum + 1⟩ := by
  have hfills := h.fills _ (mod_kDefaultBlockNum_lt ring.delivered.length)
  rw [h.consumed_eq, visits_self, hready] at hfills
  simp [block, hfills]

/-- The block whose turn it is may be delivered when it is ready. -/
theorem Kept.deliver (h : ring.Kept none) {i : ℕ}
    (hi : i = ring.delivered.length % kDefaultBlockNum) (hready : ring.ready i = true) :
    (ring.deliver i).Kept (some i) where
  inOrder := by
    subst hi
    simp only [Ring.deliver, List.length_append, List.length_singleton, ringOrder_succ]
    rw [h.block_eq hready, ← h.inOrder]
  returned := by
    rw [Ring.deliver, h.consumed_eq]
    rfl
  fills := h.fills
  held := by
    rintro _ ⟨⟩
    refine ⟨?_, hready⟩
    rw [hi, Ring.deliver, h.consumed_eq]

/-- A block is returned when its handler is done. -/
theorem Kept.consume {i : ℕ} (h : ring.Kept (some i)) : (ring.consume i).Kept none where
  inOrder := h.inOrder
  returned := by
    have hreturned := h.returned
    simpa [Ring.consume] using hreturned
  fills j hj := by
    -- the fill of the returned block is counted as a visit from now on
    obtain ⟨hindex, hready⟩ := h.held i rfl
    have hold := h.fills j hj
    simp only [Ring.consume, List.length_append, List.length_singleton, visits_succ hj]
    by_cases hij : j = i
    · subst hij
      rw [hready] at hold
      simp [← hindex, hold]
    · have hne : ¬ ring.consumed.length % kDefaultBlockNum = j := by
        rw [← hindex]
        exact Ne.symm hij
      simp [hij, hne, hold]
  held := nofun

/-- What two readers have been delivered is the same, as far as both have got. -/
theorem Kept.isPrefix_or {running' : Option ℕ} (h : ring.Kept running)
    (h' : ring'.Kept running') :
    ring.delivered <+: ring'.delivered ∨ ring'.delivered <+: ring.delivered := by
  rw [h.inOrder, h'.inOrder]
  rcases Nat.le_total ring.delivered.length ring'.delivered.length with hle | hle
  · exact .inl (ringOrder_isPrefix hle)
  · exact .inr (ringOrder_isPrefix hle)

/-- A reader that has caught up with the kernel is not behind another one. -/
theorem Kept.length_le (h : ring.Kept none) (h' : ring'.Kept none)
    (hready : ring.ready (ring.delivered.length % kDefaultBlockNum) = false)
    (hfills : ∀ i < kDefaultBlockNum, ring.fills i = ring'.fills i) :
    ring'.delivered.length ≤ ring.delivered.length := by
  by_contra hlt
  -- the other one has been delivered a fill that the kernel has not made
  have hindex := mod_kDefaultBlockNum_lt ring.delivered.length
  have hmade := h.fills _ hindex
  have hread := h'.fills _ hindex
  have hmore := visits_mono (Nat.lt_of_not_le hlt) (ring.delivered.length % kDefaultBlockNum)
  rw [visits_succ hindex, if_pos rfl] at hmore
  rw [h.consumed_eq, hready, Bool.toNat_false, Nat.add_zero, hfills _ hindex] at hmade
  rw [h'.consumed_eq] at hread
  omega

/-- Two readers that have caught up with the same fills were delivered the same. -/
theorem Kept.delivered_eq (h : ring.Kept none) (h' : ring'.Kept none)
    (hready : ring.ready (ring.delivered.length % kDefaultBlockNum) = false)
    (hready' : ring'.ready (ring'.delivered.length % kDefaultBlockNum) = false)
    (hfills : ∀ i < kDefaultBlockNum, ring.fills i = ring'.fills i) :
    ring.delivered = ring'.delivered := by
  have hle := h.length_le h' hready hfills
  have hge := h'.length_le h hready' fun i hi => (hfills i hi).symm
  rw [h.inOrder, h'.inOrder, Nat.le_antisymm hge hle]

end Ring

/-! ## The polling path -/

namespace Polling

/-- `PollReceiveBlockSync()` -/
structure State where
  ring : Ring := {}
  /-- `current_block_index_` -/
  currentBlockIndex : ℕ := 0
  /-- The completion handler is running. -/
  handling : Bool := false

/-- The steps of the kernel and of the loop. -/
inductive Action
  /-- The kernel fills a block. -/
  | mark (i : ℕ)
  /-- The loop looks at the current block, and waits if it is not ready. -/
  | poll
  /-- The completion handler returns. -/
  | finish
deriving DecidableEq, Repr

namespace State

/-- The step labelled by an action, if it is enabled. -/
def step (σ : State) : Action → Option State
  | .mark i =>
    if i < kDefaultBlockNum ∧ σ.ring.ready i = false then some { σ with ring := σ.ring.mark i }
    else none
  | .poll =>
    if σ.handling then none
    else if σ.ring.ready σ.currentBlockIndex then
      some { σ with ring := σ.ring.deliver σ.currentBlockIndex, handling := true }
    else some σ
  | .finish =>
    if σ.handling then
      some { σ with
        ring := σ.ring.consume σ.currentBlockIndex
        currentBlockIndex := incrementBlockIndex σ.currentBlockIndex
        handling := false }
    else none

/-- The loop has delivered all that it can. -/
def CaughtUp (σ : State) : Prop :=
  σ.handling = false ∧ σ.ring.ready σ.currentBlockIndex = false

/-- The invariant of the loop. -/
structure Inv (σ : State) : Prop where
  kept : σ.ring.Kept (if σ.handling then some σ.currentBlockIndex else none)
  index : σ.currentBlockIndex = σ.ring.consumed.length % kDefaultBlockNum

/-- One step keeps the invariant. -/
theorem Inv.step {σ σ' : State} (h : σ.Inv) {a : Action} (hσ' : σ.step a = some σ') : σ'.Inv := by
  have hkept := h.kept
  have hindex := h.index
  cases a with
  | mark i =>
    obtain ⟨⟨-, hready⟩, ⟨⟩⟩ := Option.ite_none_right_eq_some.mp hσ'
    exact ⟨hkept.mark hready, hindex⟩
  | poll =>
    obtain ⟨hhandling, hσ'⟩ := Option.ite_none_left_eq_some.mp hσ'
    rw [if_neg hhandling] at hkept
    split at hσ'
    · rename_i hready
      cases hσ'
      refine ⟨hkept.deliver ?_ hready, hindex⟩
      rw [hindex, hkept.consumed_eq]
    · cases hσ'
      exact h
  | finish =>
    obtain ⟨hhandling, ⟨⟩⟩ := Option.ite_none_right_eq_some.mp hσ'
    rw [if_pos hhandling] at hkept
    refine ⟨hkept.consume, ?_⟩
    simp only [hindex, incrementBlockIndex_mod, Ring.consume, List.length_append,
      List.length_singleton]

end State

/-- The polling path as a machine. -/
def machine : ToMathlib.Machine State Action where
  init σ := σ = {}
  step := State.step

/-- The invariant holds in every state that is reached. -/
theorem inv_of_reachable {σ : State} (hσ : machine.Reachable σ) : σ.Inv := by
  refine hσ.invariant ?_ ?_
  · rintro _ rfl
    exact ⟨.empty, rfl⟩
  · intro σ a σ' h _ hσ'
    exact h.step hσ'

end Polling

/-! ## The asynchronous path -/

namespace Async

/-- A completion handler that is running. -/
structure Handler where
  block : ℕ
  /-- It was called by `HandleBlockReceive()`, not by a job. -/
  fromReactor : Bool
  /-- It has called `ReceiveBlockAsync()`. -/
  reissued : Bool := false
deriving DecidableEq, Repr

/-- The socket with its client. -/
structure State where
  ring : Ring := {}
  /-- `current_block_index_` -/
  currentBlockIndex : ℕ := 0
  /-- `recv_ongoing_` -/
  recvOngoing : Bool := false
  /-- `packet_mmap_block_read_pending_` -/
  packetMmapBlockReadPending : Bool := false
  /-- The blocks of the jobs that were posted and have not started. -/
  jobs : List ℕ := []
  handlers : List Handler := []
  /-- The client has made its first request. -/
  started : Bool := false

/-- The steps of the kernel, the client, the reactor and the executor. -/
inductive Action
  /-- The kernel fills a block. -/
  | mark (i : ℕ)
  /-- The client makes its first request. -/
  | start
  /-- A read event, up to the call of the completion handler. -/
  | event
  /-- The completion handler at a position makes the next request. -/
  | reissue (j : ℕ)
  /-- The completion handler at a position returns. -/
  | finish (j : ℕ)
  /-- An executor thread starts the job at a position. -/
  | run (j : ℕ)
deriving DecidableEq, Repr

/-- The step is not one of the kernel. -/
def Action.Internal : Action → Prop
  | .mark _ => False
  | .start | .event | .reissue _ | .finish _ | .run _ => True

namespace State

/-- `ReceiveBlockAsync()` -/
def receiveBlockAsync (σ : State) : State :=
  if σ.packetMmapBlockReadPending then
    { σ with
      packetMmapBlockReadPending := false
      -- the index stays at the block that the job will deliver
      jobs := σ.jobs ++ [σ.currentBlockIndex] }
  else if σ.recvOngoing then σ -- refused
  else { σ with recvOngoing := true }

/-- `HandleBlockReceive()` up to the call of the completion handler. After a false wake-up the read
operation is started again. -/
def handleBlockReceive (σ : State) : State :=
  if σ.ring.ready σ.currentBlockIndex then
    let next := incrementBlockIndex σ.currentBlockIndex
    { σ with
      recvOngoing := false
      currentBlockIndex := next
      -- `IncrementAndCheckNextBlockAvailable()`
      packetMmapBlockReadPending := σ.packetMmapBlockReadPending || σ.ring.ready next
      ring := σ.ring.deliver σ.currentBlockIndex
      handlers := { block := σ.currentBlockIndex, fromReactor := true } :: σ.handlers }
  else σ

/-- The step labelled by an action, if it is enabled. The reactor does not run the operation of the
socket twice at a time, and an event that comes while no receive is ongoing is ignored. -/
def step (σ : State) : Action → Option State
  | .mark i =>
    if i < kDefaultBlockNum ∧ σ.ring.ready i = false then some { σ with ring := σ.ring.mark i }
    else none
  | .start => if σ.started then none else some { σ.receiveBlockAsync with started := true }
  | .event =>
    if σ.recvOngoing ∧ ∀ h ∈ σ.handlers, h.fromReactor = false then some σ.handleBlockReceive
    else none
  | .reissue j =>
    match σ.handlers[j]? with
    | some h =>
      if h.reissued then none
      else some { σ with handlers := σ.handlers.set j { h with reissued := true }
        }.receiveBlockAsync
    | none => none
  | .finish j =>
    match σ.handlers[j]? with
    | some h =>
      if h.reissued then
        some { σ with
          handlers := σ.handlers.eraseIdx j
          -- only `HandleBlockReceive()` consumes the block
          ring := if h.fromReactor then σ.ring.consume h.block else σ.ring }
      else none
    | none => none
  | .run j =>
    match σ.jobs[j]? with
    | some block =>
      some { σ with
        jobs := σ.jobs.eraseIdx j
        ring := σ.ring.deliver block
        handlers := { block, fromReactor := false } :: σ.handlers }
    | none => none

/-- The condition on a step: when a block is delivered, the one after it is not ready. -/
def OneAtATime (σ : State) : Action → Prop
  | .event => σ.ring.ready σ.currentBlockIndex = true →
      σ.ring.ready (incrementBlockIndex σ.currentBlockIndex) = false
  | .mark _ | .start | .reissue _ | .finish _ | .run _ => True

/-- The socket has delivered all that it can. -/
def CaughtUp (σ : State) : Prop :=
  σ.handlers = [] ∧ σ.ring.ready σ.currentBlockIndex = false

end State

/-- The asynchronous path as a machine. -/
def machine : ToMathlib.Machine State Action where
  init σ := σ = {}
  step := State.step

namespace State

/-- Steps of the client, the reactor and the executor lead to a state in which these blocks were
delivered. -/
def CanDeliver (σ : State) (blocks : List Block) : Prop :=
  ∃ as τ, (∀ a ∈ as, a.Internal) ∧ machine.run ToMathlib.Machine.Always σ as = some τ ∧
    τ.ring.delivered = blocks

/-- What the asynchronous path has done. -/
structure BlocksDelivered (σ : State) : Prop where
  /-- The blocks were delivered in ring order, with every fill once. -/
  inOrder : σ.ring.delivered = ringOrder σ.ring.delivered.length
  /-- They were returned to the kernel, each once, except while their handlers are running. -/
  returned : σ.ring.consumed ++ σ.handlers.map (fun h => σ.ring.block h.block) = σ.ring.delivered
  /-- If the next block is ready, it can be delivered. -/
  progress : σ.ring.ready (σ.ring.delivered.length % kDefaultBlockNum) = true →
    σ.CanDeliver (ringOrder (σ.ring.delivered.length + 1))
  /-- The polling path delivers the same blocks. -/
  agrees : ∀ τ, Polling.machine.Reachable τ →
    (σ.ring.delivered <+: τ.ring.delivered ∨ τ.ring.delivered <+: σ.ring.delivered) ∧
    (σ.CaughtUp → τ.CaughtUp → (∀ i < kDefaultBlockNum, σ.ring.fills i = τ.ring.fills i) →
      σ.ring.delivered = τ.ring.delivered)

/-- Where the client is: it has made no request yet, a receive is ongoing, or the completion handler
is running, which may have made the next request. -/
def Requested (σ : State) : Prop :=
  (σ.handlers = [] ∧ σ.recvOngoing = σ.started) ∨
    ∃ h, σ.handlers = [h] ∧ h.fromReactor = true ∧ σ.recvOngoing = h.reissued ∧ σ.started = true

/-- The invariant: no request is completed by a job. -/
structure Inv (σ : State) : Prop where
  kept : σ.ring.Kept (σ.handlers.head?.map (·.block))
  index : σ.currentBlockIndex = σ.ring.delivered.length % kDefaultBlockNum
  pending : σ.packetMmapBlockReadPending = false
  jobs : σ.jobs = []
  requested : σ.Requested

variable {σ σ' : State}

/-- An event keeps the invariant if the block after the one that is delivered is not ready. -/
theorem Inv.handleBlockReceive (h : σ.Inv) (hongoing : σ.recvOngoing = true)
    (hhandlers : ∀ h ∈ σ.handlers, h.fromReactor = false)
    (hnext : σ.ring.ready σ.currentBlockIndex = true →
      σ.ring.ready (incrementBlockIndex σ.currentBlockIndex) = false) :
    σ.handleBlockReceive.Inv := by
  -- no handler is running
  obtain ⟨hnone, hstarted⟩ : σ.handlers = [] ∧ σ.started = true := by
    rcases h.requested with ⟨hnone, hstarted⟩ | ⟨handler, hone, hreactor, -, -⟩
    · exact ⟨hnone, hstarted ▸ hongoing⟩
    · have hjob := hhandlers handler (by simp [hone])
      simp [hreactor] at hjob
  have hkept := h.kept
  rw [hnone] at hkept
  unfold State.handleBlockReceive
  split
  · rename_i hready
    refine ⟨?_, ?_, ?_, h.jobs, .inr ⟨_, by rw [hnone], rfl, rfl, hstarted⟩⟩
    · exact hkept.deliver h.index hready
    · simp only [h.index, incrementBlockIndex_mod, Ring.deliver, List.length_append,
        List.length_singleton]
    · -- the next request will be left to the reactor too
      simp only [h.pending, Bool.false_or]
      exact hnext hready
  · exact h

/-- A request is left to the reactor if no block is pending and no receive is ongoing. -/
theorem receiveBlockAsync_eq (hpending : σ.packetMmapBlockReadPending = false)
    (hongoing : σ.recvOngoing = false) :
    σ.receiveBlockAsync = { σ with recvOngoing := true } := by
  simp [receiveBlockAsync, hpending, hongoing]

/-- A handler that is running is the only one, and was called by the reactor. -/
theorem Inv.handler (h : σ.Inv) {j : ℕ} {handler : Handler} (hj : σ.handlers[j]? = some handler) :
    j = 0 ∧ σ.handlers = [handler] ∧ handler.fromReactor = true ∧
      σ.recvOngoing = handler.reissued ∧ σ.started = true := by
  rcases h.requested with ⟨hnone, -⟩ | ⟨only, hone, hreactor, hongoing, hstarted⟩
  · simp [hnone] at hj
  · rw [hone] at hj
    cases j with
    | zero =>
      obtain rfl : only = handler := by simpa using hj
      exact ⟨rfl, hone, hreactor, hongoing, hstarted⟩
    | succ j => simp at hj

/-- One step keeps the invariant. -/
theorem Inv.step (h : σ.Inv) {a : Action} (hC : σ.OneAtATime a) (hσ' : σ.step a = some σ') :
    σ'.Inv := by
  cases a with
  | mark i =>
    obtain ⟨⟨-, hready⟩, ⟨⟩⟩ := Option.ite_none_right_eq_some.mp hσ'
    exact ⟨h.kept.mark hready, h.index, h.pending, h.jobs, h.requested⟩
  | start =>
    obtain ⟨hstarted, ⟨⟩⟩ := Option.ite_none_left_eq_some.mp hσ'
    rcases h.requested with ⟨hnone, hongoing⟩ | ⟨_, -, -, -, htrue⟩
    · rw [receiveBlockAsync_eq h.pending (hongoing.trans (by simpa using hstarted))]
      exact ⟨h.kept, h.index, h.pending, h.jobs, .inl ⟨hnone, rfl⟩⟩
    · exact absurd htrue hstarted
  | event =>
    obtain ⟨⟨hongoing, hhandlers⟩, ⟨⟩⟩ := Option.ite_none_right_eq_some.mp hσ'
    exact h.handleBlockReceive hongoing hhandlers hC
  | reissue j =>
    simp only [State.step] at hσ'
    split at hσ'
    · rename_i handler hj
      obtain ⟨hreissued, ⟨⟩⟩ := Option.ite_none_left_eq_some.mp hσ'
      obtain ⟨rfl, hone, hreactor, hongoing, hstarted⟩ := h.handler hj
      have hkept := h.kept
      rw [hone] at hkept
      have hidle : σ.recvOngoing = false := hongoing.trans (by simpa using hreissued)
      rw [receiveBlockAsync_eq (by exact h.pending) (by exact hidle), hone]
      exact ⟨hkept, h.index, h.pending, h.jobs, .inr ⟨_, rfl, hreactor, rfl, hstarted⟩⟩
    · cases hσ'
  | finish j =>
    simp only [State.step] at hσ'
    split at hσ'
    · rename_i handler hj
      obtain ⟨hreissued, ⟨⟩⟩ := Option.ite_none_right_eq_some.mp hσ'
      obtain ⟨rfl, hone, hreactor, hongoing, hstarted⟩ := h.handler hj
      have hkept := h.kept
      rw [hone] at hkept
      rw [hone, if_pos hreactor]
      refine ⟨hkept.consume, h.index, h.pending, h.jobs, .inl ⟨rfl, ?_⟩⟩
      exact (hongoing.trans hreissued).trans hstarted.symm
    · cases hσ'
  | run j =>
    -- no job was posted
    simp only [State.step, h.jobs, List.getElem?_nil] at hσ'
    cases hσ'

/-! ### Progress -/

/-- One step more. -/
theorem CanDeliver.step {blocks : List Block} {a : Action} (h : σ'.CanDeliver blocks)
    (hσ' : σ.step a = some σ') (ha : a.Internal) : σ.CanDeliver blocks := by
  obtain ⟨as, τ, has, hrun, hdelivered⟩ := h
  refine ⟨a :: as, τ, ?_, ?_, hdelivered⟩
  · intro b hb
    rcases List.mem_cons.mp hb with rfl | hb
    · exact ha
    · exact has b hb
  · have hstep : machine.step σ a = some σ' := hσ'
    simp [ToMathlib.Machine.run, hstep, hrun]

/-- An event delivers the next block if a receive is ongoing and no handler is running. -/
theorem Inv.canDeliver_of_ongoing (h : σ.Inv) (hnone : σ.handlers = [])
    (hongoing : σ.recvOngoing = true)
    (hready : σ.ring.ready (σ.ring.delivered.length % kDefaultBlockNum) = true) :
    σ.CanDeliver (ringOrder (σ.ring.delivered.length + 1)) := by
  have hkept := h.kept
  rw [hnone] at hkept
  have hdone : σ.handleBlockReceive.CanDeliver (ringOrder (σ.ring.delivered.length + 1)) := by
    refine ⟨[], σ.handleBlockReceive, nofun, rfl, ?_⟩
    rw [State.handleBlockReceive, h.index, if_pos hready, ringOrder_succ, ← hkept.block_eq hready,
      ← hkept.inOrder]
    rfl
  refine hdone.step (a := .event) ?_ trivial
  simp [State.step, hongoing, hnone]

/-- A handler that has made the next request returns, and the next block is delivered. -/
theorem Inv.canDeliver_of_reissued (h : σ.Inv) {handler : Handler} (hone : σ.handlers = [handler])
    (hreissued : handler.reissued = true)
    (hready : σ.ring.ready (σ.ring.delivered.length % kDefaultBlockNum) = true) :
    σ.CanDeliver (ringOrder (σ.ring.delivered.length + 1)) := by
  have hfirst : σ.handlers[0]? = some handler := by simp [hone]
  obtain ⟨-, -, hreactor, hongoing, -⟩ := h.handler hfirst
  have hkept := h.kept
  rw [hone] at hkept
  have hstep : σ.step (.finish 0) =
      some { σ with handlers := [], ring := σ.ring.consume handler.block } := by
    simp [State.step, hone, hreissued, hreactor]
  have hfinish := h.step (a := .finish 0) trivial hstep
  -- the block that is returned is not the next one
  have hne : σ.ring.delivered.length % kDefaultBlockNum ≠ handler.block := by
    have hlength := congrArg List.length hkept.returned
    simp only [List.head?_cons, Option.map_some, Option.toList_some, List.length_append,
      List.length_singleton] at hlength
    rw [(hkept.held handler.block rfl).1, ← hlength]
    simp only [kDefaultBlockNum]
    omega
  refine (hfinish.canDeliver_of_ongoing rfl (hongoing.trans hreissued) ?_).step hstep trivial
  simpa [Ring.consume, hne] using hready

/-- The next block can be delivered when it is ready. -/
theorem Inv.canDeliver (h : σ.Inv)
    (hready : σ.ring.ready (σ.ring.delivered.length % kDefaultBlockNum) = true) :
    σ.CanDeliver (ringOrder (σ.ring.delivered.length + 1)) := by
  rcases h.requested with ⟨hnone, hongoing⟩ | ⟨handler, hone, -, hongoing, -⟩
  · cases hstarted : σ.started with
    | true => exact h.canDeliver_of_ongoing hnone (hongoing.trans hstarted) hready
    | false =>
      -- the client makes its first request
      have hstep : σ.step .start = some { σ with recvOngoing := true, started := true } := by
        simp [State.step, hstarted, receiveBlockAsync_eq h.pending (hongoing.trans hstarted)]
      have hinv := h.step (a := .start) trivial hstep
      exact (hinv.canDeliver_of_ongoing hnone rfl hready).step hstep trivial
  · cases hreissued : handler.reissued with
    | true => exact h.canDeliver_of_reissued hone hreissued hready
    | false =>
      -- the handler makes the next request
      have hidle : σ.recvOngoing = false := hongoing.trans hreissued
      have hstep : σ.step (.reissue 0) =
          some { σ with recvOngoing := true, handlers := [{ handler with reissued := true }] } := by
        simp only [State.step, hone, List.getElem?_cons_zero, hreissued, Bool.false_eq_true,
          ↓reduceIte, List.set_cons_zero]
        rw [receiveBlockAsync_eq (by exact h.pending) (by exact hidle)]
      have hinv := h.step (a := .reissue 0) trivial hstep
      exact (hinv.canDeliver_of_reissued rfl rfl hready).step hstep trivial

/-! ### The result -/

/-- The invariant gives what is promised. -/
theorem Inv.blocksDelivered (h : σ.Inv) : σ.BlocksDelivered where
  inOrder := h.kept.inOrder
  returned := by
    have hreturned := h.kept.returned
    rcases h.requested with ⟨hnone, -⟩ | ⟨handler, hone, -, -, -⟩
    · simpa [hnone] using hreturned
    · simpa [hone] using hreturned
  progress := h.canDeliver
  agrees τ hτ := by
    have hinv := Polling.inv_of_reachable hτ
    refine ⟨h.kept.isPrefix_or hinv.kept, ?_⟩
    rintro ⟨hnone, hready⟩ ⟨hidle, hready'⟩ hfills
    have hkept := h.kept
    have hkept' := hinv.kept
    rw [hnone] at hkept
    simp only [hidle, Bool.false_eq_true, ↓reduceIte] at hkept'
    -- for both readers, the current block is the next one in ring order
    rw [h.index] at hready
    rw [hinv.index, hkept'.consumed_eq] at hready'
    exact hkept.delivered_eq hkept' hready hready' hfills

instance (σ : State) : (a : Action) → Decidable (σ.OneAtATime a)
  | .event => inferInstanceAs (Decidable (_ → _))
  | .mark _ | .start | .reissue _ | .finish _ | .run _ => inferInstanceAs (Decidable True)

end State

/-- In every run in which blocks become ready one at a time, the blocks are delivered as by the
polling path: in ring order, with every fill once, and each is returned once its handler is done. -/
theorem async_blocks_delivered {σ : State} (hσ : machine.ReachableIn State.OneAtATime σ) :
    σ.BlocksDelivered := by
  have hinv : σ.Inv := by
    refine hσ.invariant ?_ ?_
    · rintro _ rfl
      exact ⟨.empty, rfl, rfl, rfl, .inl ⟨rfl, rfl⟩⟩
    · intro σ a σ' h hC hσ'
      exact h.step hC hσ'
  exact hinv.blocksDelivered

/-- Three blocks become ready, the second one while the handler of the first one is running: they
are delivered one after the other. -/
theorem async_blocks_delivered_three :
    ∃ σ, machine.ReachableIn State.OneAtATime σ ∧
      σ.ring.delivered = [⟨0, 1⟩, ⟨1, 1⟩, ⟨2, 1⟩] ∧ σ.ring.consumed = [⟨0, 1⟩, ⟨1, 1⟩] ∧
      σ.BlocksDelivered := by
  have hσ := ToMathlib.Machine.reachableIn_get_run (M := machine) (C := State.OneAtATime) (s := {})
    (l := [.start, .mark 0, .event, .mark 1, .reissue 0, .finish 0, .event, .reissue 0, .finish 0,
      .mark 2, .event]) rfl (by decide)
  exact ⟨_, hσ, by decide, by decide, async_blocks_delivered hσ⟩

/-- Two blocks are ready when the first one is delivered: the second one is delivered by a job, is
not returned, and is delivered once more by the next event. -/
theorem async_blocks_delivered_burst :
    ∃ σ, machine.Reachable σ ∧ σ.ring.delivered = [⟨0, 1⟩, ⟨1, 1⟩, ⟨1, 1⟩] ∧
      σ.ring.consumed = [⟨0, 1⟩] ∧ ¬ σ.BlocksDelivered := by
  have hσ := ToMathlib.Machine.reachableIn_get_run (M := machine) (C := ToMathlib.Machine.Always)
    (s := {})
    (l := [.start, .mark 0, .mark 1, .event, .reissue 0, .finish 0, .run 0, .reissue 0, .finish 0,
      .event]) rfl (by decide)
  refine ⟨_, hσ, by decide, by decide, fun hdelivered => ?_⟩
  exact absurd hdelivered.inOrder (by decide)

end Async

end Asrt.Socket.PacketRing
