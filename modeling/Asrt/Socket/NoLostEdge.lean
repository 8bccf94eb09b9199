import Asrt.Reactor.EventBatch
import Asrt.Reactor.Registration
import Asrt.Socket.StreamSocket

/-!
# When no read edge of a stream socket is lost

`captured_events_` says that there may be data. A receive that is started while it has the read
event tries at once, and consumes the event only when it has found the buffer empty; the operation
of the socket reads for the receive that is pending when it starts. An event that is handled while
the operation is executing does not post another one, and the operation does not look at
`captured_events_` again: if the completion handler that is running has started a receive, nobody
reads for it.

`no_lost_edge` is about the runs in which no event is lost this way. The invariant says who notices
the data in the kernel's buffer: an edge that is not yet handled, the queued operation if a receive
is pending, and the next receive if none is.
-/

namespace Asrt.Socket.Stream

open Reactor

namespace State

/-- There is a read edge that the reactor has not handled. -/
def Unreported (σ : State) : Prop :=
  σ.edge = true ∨ ∃ mask ∈ σ.fetched, (Events.ofMask mask).hasReadEvent = true

instance (σ : State) : Decidable σ.Unreported :=
  -- not by a search through all masks
  haveI : Decidable (∃ mask ∈ σ.fetched, (Events.ofMask mask).hasReadEvent = true) :=
    Option.decidableExistsMem σ.fetched
  inferInstanceAs (Decidable (_ ∨ _))

/-- The operation of the socket is queued, and will find a read event when it looks at the captured
events. -/
def WillRead (σ : State) : Prop :=
  σ.phase = .queued ∧
    (σ.entry.capturedEvents.intersection σ.entry.monitoredEvents).hasReadEvent = true

instance (σ : State) : Decidable σ.WillRead :=
  inferInstanceAs (Decidable (_ ∧ _))

/-- Data in the kernel without an edge to be handled is read: for the pending receive by the
operation, or else for the next receive, which tries at once. -/
def NoLostEdge (σ : State) : Prop :=
  σ.isConnected = true → 0 < σ.buffer → ¬ σ.Unreported →
    σ.entry.valid = true ∧
    if σ.recvOperation.operationOngoing then σ.WillRead
    else σ.entry.capturedEvents.hasReadEvent = true

/-- A completion handler of the socket is running. -/
def InCallback (σ : State) : Prop :=
  match σ.phase with
  | .receiveCallback _ | .sendCallback => True
  | .idle | .queued => False

instance (σ : State) : Decidable σ.InCallback :=
  match hphase : σ.phase with
  | .receiveCallback _ | .sendCallback => .isTrue (by simp [InCallback, hphase])
  | .idle | .queued => .isFalse (by simp [InCallback, hphase])

/-- The condition on a step: an event that is handled while a completion handler of the socket is
running finds no receive pending, no data, or another edge under way. -/
def Prompt (σ : State) : Action → Prop
  | .handle => σ.InCallback →
      σ.recvOperation.operationOngoing = false ∨ σ.buffer = 0 ∨ σ.edge = true
  | _ => True

instance (σ : State) : (a : Action) → Decidable (σ.Prompt a)
  | .handle => inferInstanceAs (Decidable (_ → _))
  | .receive _ _ _ | .send _ _ _ | .arrive _ | .wait _ | .begin _ _ _ | .resume _ _ | .finish
  | .onCloseEvent | .deregister => inferInstanceAs (Decidable True)

/-! ## The invariant -/

/-- What the socket knows about the data in the kernel, whatever its operation does. -/
structure Informed (σ : State) : Prop where
  valid : σ.entry.valid = true
  /-- Data is known from the captured events unless an edge tells of it. -/
  captured : 0 < σ.buffer → ¬ σ.Unreported → σ.entry.capturedEvents.hasReadEvent = true
  /-- An event that does not tell of the data was fetched before the data came. -/
  fetched : ∀ mask ∈ σ.fetched, 0 < σ.buffer → (Events.ofMask mask).hasReadEvent = false →
    σ.edge = true

/-- A pending receive is monitored. -/
def Monitored (σ : State) : Prop :=
  σ.recvOperation.operationOngoing = true → σ.entry.monitoredEvents.hasReadEvent = true

/-- The invariant of a socket that is not being closed: the operation is posted exactly if
it is queued or executing, and it is queued if there is data for a pending receive that no
edge tells of. -/
structure Inv (σ : State) : Prop extends Informed σ where
  monitored : σ.Monitored
  posted : σ.entry.handlerPosted = true ↔ σ.phase ≠ .idle
  queued : σ.recvOperation.operationOngoing = true → 0 < σ.buffer → ¬ σ.Unreported →
    σ.phase = .queued

/-- What holds while the operation of the socket is executing: a pending receive has seen all data
that no edge tells of. -/
structure Running (σ : State) : Prop extends Informed σ where
  monitored : σ.Monitored
  posted : σ.entry.handlerPosted = true
  seen : σ.recvOperation.operationOngoing = true → 0 < σ.buffer → σ.Unreported

variable {σ σ' : State} {events : Events} {result sent : IoResult} {resources : Bool}

/-- Data for a pending receive that no edge tells of is among the events to report. -/
theorem Informed.hasReadEvent (h : σ.Informed) (hmonitored : σ.Monitored)
    (hongoing : σ.recvOperation.operationOngoing = true) (hdata : 0 < σ.buffer)
    (hreported : ¬ σ.Unreported) :
    (σ.entry.capturedEvents.intersection σ.entry.monitoredEvents).hasReadEvent = true := by
  rw [Events.hasReadEvent_intersection, h.captured hdata hreported, hmonitored hongoing]
  rfl

/-- The invariant gives what is promised. -/
theorem Inv.noLostEdge (h : σ.Inv) : σ.NoLostEdge := by
  intro _ hbuffer hreported
  refine ⟨h.valid, ?_⟩
  split
  · rename_i hongoing
    exact ⟨h.queued hongoing hbuffer hreported,
      h.hasReadEvent h.monitored hongoing hbuffer hreported⟩
  · exact h.captured hbuffer hreported

/-- The knowledge stays if the read event is kept while there is data and no other data comes. -/
theorem Informed.update (h : σ.Informed) (hvalid : σ'.entry.valid = σ.entry.valid)
    (hcaptured : 0 < σ'.buffer → σ.entry.capturedEvents.hasReadEvent = true →
      σ'.entry.capturedEvents.hasReadEvent = true)
    (hbuffer : σ'.buffer ≤ σ.buffer) (hedge : σ'.edge = σ.edge)
    (hfetched : σ'.fetched = σ.fetched) : σ'.Informed where
  valid := hvalid.trans h.valid
  captured hdata hreported := by
    rw [Unreported, hedge, hfetched] at hreported
    exact hcaptured hdata (h.captured (lt_of_lt_of_le hdata hbuffer) hreported)
  fetched mask hmask hdata hread := by
    rw [hedge]
    exact h.fetched mask (hfetched ▸ hmask) (lt_of_lt_of_le hdata hbuffer) hread

/-- In a callback the operation is executing. -/
theorem Inv.running (h : σ.Inv) (hidle : σ.phase ≠ .idle) (hqueued : σ.phase ≠ .queued) :
    σ.Running := by
  refine ⟨h.toInformed, h.monitored, h.posted.mpr hidle, fun hongoing hdata => ?_⟩
  by_contra hreported
  exact hqueued (h.queued hongoing hdata hreported)

/-- An executing operation calls a completion handler. -/
theorem Running.inv (h : σ.Running) (hphase : σ.phase ≠ .idle) : σ.Inv :=
  ⟨h.toInformed, h.monitored, ⟨fun _ => hphase, fun _ => h.posted⟩,
    fun hongoing hdata hreported => absurd (h.seen hongoing hdata) hreported⟩

/-! ## The operation -/

/-- The entry after the end of the operation. -/
theorem finishOperation_entry (σ : State) :
    σ.finishOperation.entry = { σ.entry with
      executionInProgress := false
      handler := if σ.entry.releaseHandlerMemory then none else σ.entry.handler
      releaseHandlerMemory := false
      closeIoSource := false
      handlerPosted := false } := by
  simp [finishOperation, entry, EpollReactor.finishOperation_eq]

/-- An executing operation ends. -/
theorem Running.finishOperation (h : σ.Running) : σ.finishOperation.Inv := by
  refine ⟨h.toInformed.update ?_ ?_ le_rfl rfl rfl, ?_, ?_,
    fun hongoing hdata hreported => absurd (h.seen hongoing hdata) hreported⟩
  · rw [finishOperation_entry]
  · rw [finishOperation_entry]
    exact fun _ hread => hread
  · rw [Monitored, finishOperation_entry]
    exact h.monitored
  · rw [finishOperation_entry]
    simp [State.finishOperation]

/-- The entry after the start of a read. -/
theorem asyncReadOperationStarted_entry (σ : State) :
    σ.asyncReadOperationStarted.entry = { σ.entry with
      monitoredEvents := σ.entry.monitoredEvents.union .kRead
      asyncOperationOngoing := true } :=
  EpollReactor.onStartOfOperation_entry _ _ _ _

/-- The entry after the start of a write. -/
theorem asyncWriteOperationStarted_entry (σ : State) (resources : Bool) :
    (σ.asyncWriteOperationStarted resources).entry = { σ.entry with
      monitoredEvents := σ.entry.monitoredEvents.union .kWrite
      asyncOperationOngoing := true } :=
  EpollReactor.onStartOfOperation_entry _ _ _ _

/-- After the start of a read, a pending receive is monitored. -/
theorem monitored_asyncReadOperationStarted (σ : State) :
    σ.asyncReadOperationStarted.Monitored := by
  rw [Monitored, asyncReadOperationStarted_entry]
  intro _
  rw [Events.hasReadEvent_union, show Events.kRead.hasReadEvent = true from by decide, Bool.or_true]

/-- The start of a write keeps the events that are monitored. -/
theorem Monitored.asyncWriteOperationStarted (h : σ.Monitored) :
    (σ.asyncWriteOperationStarted resources).Monitored := by
  rw [Monitored, asyncWriteOperationStarted_entry]
  intro hongoing
  rw [Events.hasReadEvent_union, h hongoing, Bool.true_or]

/-- The second part of `HandleDataTranster()` does not touch the receive. -/
theorem Running.handleWriteEvent (h : σ.Running)
    (hσ' : σ.handleWriteEvent events sent resources = some σ') : σ'.Inv := by
  unfold State.handleWriteEvent handleSend at hσ'
  split at hσ'
  · split at hσ'
    · split at hσ'
      · -- the send is complete, and its handler is called
        obtain rfl := Option.some.inj hσ'
        exact Running.inv ⟨⟨h.valid, h.captured, h.fetched⟩, h.monitored, h.posted, h.seen⟩
          Phase.noConfusion
      · obtain rfl := Option.some.inj hσ'
        refine Running.finishOperation ⟨h.toInformed.update ?_ ?_ le_rfl rfl rfl, ?_, ?_, h.seen⟩
        · rw [asyncWriteOperationStarted_entry]
        · rw [asyncWriteOperationStarted_entry]
          exact fun _ hread => hread
        · exact Monitored.asyncWriteOperationStarted h.monitored
        · rw [asyncWriteOperationStarted_entry]
          exact h.posted
    · cases hσ'
  · obtain rfl := Option.some.inj hσ'
    exact h.finishOperation

/-- A receive that needs to go on has found the buffer empty in the end. -/
theorem drained_of_kAsyncNeeded {buffer size : ℕ} {isExhaustive : Bool}
    (hresult : Receives buffer size result)
    (hstatus : performStatus true size isExhaustive result = .kAsyncNeeded) :
    buffer - result.count = 0 := by
  cases result with
  | bytes n =>
    have hn : n = min size buffer := hresult
    have hsize : n ≠ size := by
      intro heq
      simp [performStatus, heq] at hstatus
    simp only [IoResult.count]
    omega
  | busy =>
    have hbuffer : buffer = 0 := hresult
    simp [hbuffer]
  | error => simp [performStatus] at hstatus

/-- A receive that is complete in the operation: its handler is called. -/
theorem Informed.complete (h : σ.Informed) (hposted : σ.entry.handlerPosted = true) (consumed : ℕ) :
    { σ with
      buffer := σ.buffer - consumed
      recvOperation := σ.recvOperation.onCompletion
      phase := .receiveCallback events : State }.Inv := by
  refine Running.inv ⟨h.update rfl (fun _ hread => hread) (Nat.sub_le _ _) rfl rfl, ?_, hposted, ?_⟩
    Phase.noConfusion
  · exact fun hongoing => Bool.noConfusion hongoing
  · exact fun hongoing => Bool.noConfusion hongoing

/-- A read for the pending receive: it is complete, or it has found the buffer empty and goes on. -/
theorem Informed.handleReceive (h : σ.Informed) (hposted : σ.entry.handlerPosted = true)
    (hσ' : σ.handleReceive events result sent resources = some σ') : σ'.Inv := by
  unfold State.handleReceive at hσ'
  split at hσ'
  · obtain rfl := Option.some.inj hσ'
    exact h.complete hposted 0
  · split at hσ'
    · rename_i hresult
      dsimp only at hσ'
      split at hσ'
      · obtain rfl := Option.some.inj hσ'
        exact h.complete hposted _
      · rename_i hstatus
        refine Running.handleWriteEvent ?_ hσ'
        refine ⟨h.update ?_ ?_ (Nat.sub_le _ _) rfl rfl, ?_, ?_, ?_⟩
        · rw [asyncReadOperationStarted_entry]
        · rw [asyncReadOperationStarted_entry]
          exact fun _ hread => hread
        · exact monitored_asyncReadOperationStarted _
        · rw [asyncReadOperationStarted_entry]
          exact hposted
        · intro _ hdata
          have hempty := drained_of_kAsyncNeeded hresult hstatus
          exact absurd hempty (Nat.pos_iff_ne_zero.mp hdata)
    · cases hσ'

/-- The operation of a connected socket on the events that it is given: a pending receive without a
read event among them has no data that no edge tells of. -/
theorem Informed.handleDataTranster (h : σ.Informed) (hposted : σ.entry.handlerPosted = true)
    (hseen : events.hasReadEvent = false → σ.Running)
    (hσ' : σ.handleDataTranster events result sent resources = some σ') : σ'.Inv := by
  unfold State.handleDataTranster at hσ'
  split at hσ'
  · split at hσ'
    · exact h.handleReceive hposted hσ'
    · -- the read event is ignored: no receive is pending
      rename_i hongoing
      refine Running.handleWriteEvent ?_ hσ'
      refine ⟨h.update ?_ ?_ le_rfl rfl rfl, ?_, ?_, ?_⟩
      · simp only [entry, EpollReactor.onEventIgnored_entry]
      · simp only [entry, EpollReactor.onEventIgnored_entry]
        exact fun _ hread => hread
      · exact fun hpending => absurd hpending hongoing
      · simp only [entry, EpollReactor.onEventIgnored_entry]
        exact hposted
      · exact fun hpending => absurd hpending hongoing
  · rename_i hread
    exact Running.handleWriteEvent (hseen (by simpa using hread)) hσ'

/-- The operation of a connected socket, from the queue to a completion handler or to its end. -/
theorem Inv.beginOperation (h : σ.Inv) (hconnected : σ.isConnected = true)
    (hphase : σ.phase = .queued) (hσ' : σ.beginOperation result sent resources = some σ') :
    σ'.Inv := by
  have hposted : σ.entry.handlerPosted = true := by
    rw [h.posted, hphase]
    exact Phase.noConfusion
  cases hempty : (σ.entry.capturedEvents.intersection σ.entry.monitoredEvents).empty with
  | true =>
    simp only [State.beginOperation, EpollReactor.beginOperation_of_empty h.valid hempty,
      Option.some.injEq] at hσ'
    subst hσ'
    refine ⟨h.update ?_ ?_ le_rfl rfl rfl, ?_, ?_, ?_⟩
    · simp only [entry, EpollReactor.cleanupOperation_entry]
    · simp only [entry, EpollReactor.cleanupOperation_entry]
      exact fun _ hread => hread
    · simp only [Monitored, entry, EpollReactor.cleanupOperation_entry]
      exact h.monitored
    · simp only [entry, EpollReactor.cleanupOperation_entry]
      simp
    · -- data for a pending receive would have been reported
      intro hongoing hdata hreported
      have hread := h.hasReadEvent h.monitored hongoing hdata hreported
      rw [Events.empty_of_hasReadEvent hread] at hempty
      exact Bool.noConfusion hempty
  | false =>
    simp only [State.beginOperation, EpollReactor.beginOperation_of_report h.valid hempty,
      onReactorEventImpl] at hσ'
    rw [if_pos hconnected] at hσ'
    have hinformed : Informed { σ with reactor := σ.reactor.setEntry σ.reactorHandle { σ.entry with
        monitoredEvents := σ.entry.monitoredEvents.consume
          (σ.entry.capturedEvents.intersection σ.entry.monitoredEvents)
        asyncOperationOngoing := false
        executionInProgress := true } } := by
      refine h.update ?_ ?_ le_rfl rfl rfl
      · simp [entry]
      · simp [entry]
    refine hinformed.handleDataTranster ?_ ?_ hσ'
    · simpa [entry] using hposted
    · intro hread
      refine ⟨hinformed, ?_, ?_, ?_⟩
      · intro hongoing
        have hmonitored := h.monitored hongoing
        rw [Events.hasReadEvent_intersection] at hread
        simp [entry, hmonitored] at hread ⊢
        simp [hread]
      · simpa [entry] using hposted
      · intro hongoing hdata
        by_contra hreported
        have hreads := h.hasReadEvent h.monitored hongoing hdata hreported
        rw [hreads] at hread
        exact Bool.noConfusion hread

/-! ## The other steps -/

/-- The entry after the read event is consumed. -/
theorem readEventConsumed_entry (σ : State) :
    σ.readEventConsumed.entry =
      { σ.entry with capturedEvents := σ.entry.capturedEvents.consume .kRead } := by
  simp [readEventConsumed, entry]

/-- The event that is consumed stays monitored. -/
theorem Monitored.readEventConsumed (h : σ.Monitored) : σ.readEventConsumed.Monitored := by
  rw [Monitored, readEventConsumed_entry]
  exact h

/-- A receive is started. If it is left to the reactor, there is no data or an edge tells of it; if
it is tried, it is complete or it has found the buffer empty. -/
theorem Inv.doReceiveAsync {size : ℕ} {speculative exhaustive : Bool} (h : σ.Inv)
    (hspeculative : speculative = false → σ.entry.capturedEvents.hasReadEvent = false)
    (hσ' : σ.doReceiveAsync size speculative exhaustive result = some σ') : σ'.Inv := by
  unfold State.doReceiveAsync at hσ'
  split at hσ'
  · rename_i hleft
    obtain rfl := Option.some.inj hσ'
    refine ⟨h.update ?_ ?_ le_rfl rfl rfl, monitored_asyncReadOperationStarted _, ?_, ?_⟩
    · rw [asyncReadOperationStarted_entry]
    · rw [asyncReadOperationStarted_entry]
      exact fun _ hread => hread
    · rw [asyncReadOperationStarted_entry]
      exact h.posted
    · intro _ hdata hreported
      have hread := h.captured hdata hreported
      rw [hspeculative (by simpa using hleft)] at hread
      exact Bool.noConfusion hread
  · split at hσ'
    · exact Option.some.inj hσ' ▸ h
    · split at hσ'
      · exact Option.some.inj hσ' ▸ h
      · split at hσ'
        · rename_i hongoing _ hresult
          dsimp only at hσ'
          split at hσ'
          · -- no receive is pending afterwards either
            obtain rfl := Option.some.inj hσ'
            refine ⟨h.update rfl (fun _ hread => hread) (Nat.sub_le _ _) rfl rfl, h.monitored,
              h.posted, ?_⟩
            exact fun hpending => absurd hpending hongoing
          · rename_i hstatus
            obtain rfl := Option.some.inj hσ'
            have hempty := drained_of_kAsyncNeeded hresult hstatus
            refine ⟨h.update ?_ ?_ (Nat.sub_le _ _) rfl rfl, ?_, ?_, ?_⟩
            · rw [readEventConsumed_entry, asyncReadOperationStarted_entry]
            · exact fun hdata => absurd hempty (Nat.pos_iff_ne_zero.mp hdata)
            · exact Monitored.readEventConsumed (monitored_asyncReadOperationStarted _)
            · rw [readEventConsumed_entry, asyncReadOperationStarted_entry]
              exact h.posted
            · exact fun _ hdata => absurd hempty (Nat.pos_iff_ne_zero.mp hdata)
        · cases hσ'

/-- `ReceiveAsync()` and its relatives. -/
theorem Inv.receiveAsync {function : ReceiveFunction} {size : ℕ} (h : σ.Inv)
    (hσ' : σ.receiveAsync function size result = some σ') : σ'.Inv := by
  cases function with
  | receiveAsync => exact h.doReceiveAsync id hσ'
  | receiveSomeAsync => exact h.doReceiveAsync id hσ'
  | tryReceiveAsync => exact h.doReceiveAsync Bool.noConfusion hσ'

/-- `SendAsync()` does not touch the receive. -/
theorem Inv.sendAsync {size : ℕ} (h : σ.Inv) (hσ' : σ.sendAsync size sent resources = some σ') :
    σ'.Inv := by
  unfold State.sendAsync at hσ'
  split at hσ'
  · exact Option.some.inj hσ' ▸ h
  · split at hσ'
    · split at hσ'
      · exact Option.some.inj hσ' ▸ h
      · obtain rfl := Option.some.inj hσ'
        refine ⟨h.update ?_ ?_ le_rfl rfl rfl, ?_, ?_, h.queued⟩
        · rw [asyncWriteOperationStarted_entry]
        · rw [asyncWriteOperationStarted_entry]
          exact fun _ hread => hread
        · exact Monitored.asyncWriteOperationStarted h.monitored
        · rw [asyncWriteOperationStarted_entry]
          exact h.posted
    · cases hσ'

/-- Data that arrives is an edge. -/
theorem Inv.arrive {bytes : ℕ} (h : σ.Inv) :
    { σ with buffer := σ.buffer + bytes, edge := true : State }.Inv := by
  have hunreported : { σ with buffer := σ.buffer + bytes, edge := true : State }.Unreported :=
    .inl rfl
  exact ⟨⟨h.valid, fun _ hreported => absurd hunreported hreported, fun _ _ _ _ => rfl⟩,
    h.monitored, h.posted, fun _ _ hreported => absurd hunreported hreported⟩

/-- The events that the kernel reports have the read event if there is data. -/
theorem hasReadEvent_readyMask (others : BitVec 32) (hdata : 0 < σ.buffer) :
    (Events.ofMask (σ.readyMask others)).hasReadEvent = true := by
  have hmask : Events.ofMask (σ.readyMask others) = Events.kRead.union (Events.ofMask others) := by
    rw [readyMask, if_pos hdata]
    rfl
  rw [hmask, Events.hasReadEvent_union, show Events.kRead.hasReadEvent = true from by decide,
    Bool.true_or]

/-- An edge becomes an event that tells of the data. -/
theorem Inv.wait (h : σ.Inv) (others : BitVec 32) :
    { σ with
      edge := false
      fetched := if σ.readyMask others = 0 then none else some (σ.readyMask others) : State
      }.Inv := by
  have hread : 0 < σ.buffer → (Events.ofMask (σ.readyMask others)).hasReadEvent = true :=
    hasReadEvent_readyMask others
  have hmem : 0 < σ.buffer → σ.readyMask others ∈
      (if σ.readyMask others = 0 then none else some (σ.readyMask others)) := by
    intro hdata
    rw [if_neg]
    · rfl
    · intro hzero
      have hnone := hread hdata
      rw [hzero] at hnone
      exact absurd hnone (by decide)
  refine ⟨⟨h.valid, ?_, ?_⟩, h.monitored, h.posted, ?_⟩
  · exact fun hdata hreported => absurd (.inr ⟨_, hmem hdata, hread hdata⟩) hreported
  · intro mask hmask hdata hunread
    rw [Option.mem_unique hmask (hmem hdata), hread hdata] at hunread
    exact Bool.noConfusion hunread
  · exact fun _ hdata hreported => absurd (.inr ⟨_, hmem hdata, hread hdata⟩) hreported

/-- An event is recorded, and it posts the operation if it is reported. -/
theorem handleEvent_eq (σ : State) (mask : BitVec 32) :
    σ.handleEvent mask = { σ with
      reactor := σ.reactor.setEntry σ.reactorHandle { σ.entry with
        capturedEvents := Events.ofMask mask
        handlerPosted :=
          σ.entry.handlerPosted || decide (σ.reactor.Reports ⟨mask, σ.reactorHandle⟩) }
      fetched := none
      phase := if σ.reactor.Reports ⟨mask, σ.reactorHandle⟩ then .queued else σ.phase } := by
  by_cases hreports : σ.reactor.Reports ⟨mask, σ.reactorHandle⟩
  · simp [handleEvent, EpollReactor.handleSingleEvent_of_reports hreports, hreports]
  · simp [handleEvent, EpollReactor.handleSingleEvent_of_not_reports hreports, hreports]

/-- After an event the captured events tell of the data, if no edge does. -/
theorem Informed.hasReadEvent_fetched {mask : BitVec 32} (h : σ.Informed)
    (hmask : σ.fetched = some mask)
    (hdata : 0 < σ.buffer) (hedge : σ.edge ≠ true) :
    (Events.ofMask mask).hasReadEvent = true := by
  by_contra hread
  exact hedge (h.fetched mask hmask hdata (by simpa using hread))

/-- An event that tells of data for a pending receive is reported, if the operation is not
posted. -/
theorem Inv.reports {mask : BitVec 32} (h : σ.Inv) (hphase : σ.phase = .idle)
    (hongoing : σ.recvOperation.operationOngoing = true)
    (hread : (Events.ofMask mask).hasReadEvent = true) :
    σ.reactor.Reports ⟨mask, σ.reactorHandle⟩ := by
  have hposted : σ.entry.handlerPosted = false := by
    rw [Bool.eq_false_iff]
    exact fun hposted => h.posted.mp hposted hphase
  refine ⟨h.valid, hposted, Events.empty_of_hasReadEvent ?_⟩
  rw [Events.hasReadEvent_intersection, hread, Bool.true_and]
  exact h.monitored hongoing

/-- An event is handled: it posts the operation of an idle socket if a receive is pending, and a
queued operation will see it. -/
theorem Inv.handleEvent {mask : BitVec 32} (h : σ.Inv) (hprompt : σ.Prompt .handle)
    (hmask : σ.fetched = some mask) : (σ.handleEvent mask).Inv := by
  rw [handleEvent_eq]
  refine ⟨⟨?_, ?_, ?_⟩, ?_, ?_, ?_⟩
  · simpa [entry] using h.valid
  · intro hdata hreported
    have hread := h.hasReadEvent_fetched hmask hdata fun hedge => hreported (.inl hedge)
    simpa [entry] using hread
  · exact fun _ hnone => absurd hnone (Option.not_mem_none _)
  · simpa [Monitored, entry] using h.monitored
  · by_cases hreports : σ.reactor.Reports ⟨mask, σ.reactorHandle⟩
    · simp [entry, hreports]
    · simpa [entry, hreports] using h.posted
  · intro hongoing hdata hreported
    have hedge : σ.edge ≠ true := fun hedge => hreported (.inl hedge)
    show (if _ then Phase.queued else σ.phase) = .queued
    split
    · rfl
    rename_i hreports
    -- the guard: no completion handler is running
    have hout : ¬ σ.InCallback := by
      intro hcallback
      obtain hnone | hempty | hnext := hprompt hcallback
      · exact Bool.noConfusion (hnone.symm.trans hongoing)
      · exact absurd hempty (Nat.pos_iff_ne_zero.mp hdata)
      · exact hedge hnext
    cases hphase : σ.phase with
    | idle =>
      exact absurd (h.reports hphase hongoing (h.hasReadEvent_fetched hmask hdata hedge)) hreports
    | queued => rfl
    | receiveCallback events => exact absurd (by simp [InCallback, hphase]) hout
    | sendCallback => exact absurd (by simp [InCallback, hphase]) hout

/-! ## Whole runs -/

/-- The second part of `HandleDataTranster()` does not connect the socket. -/
theorem isConnected_handleWriteEvent (hσ' : σ.handleWriteEvent events sent resources = some σ') :
    σ'.isConnected = σ.isConnected := by
  unfold State.handleWriteEvent handleSend at hσ'
  repeat' split at hσ'
  all_goals cases hσ'
  all_goals rfl

/-- The operation does not connect the socket. -/
theorem isConnected_beginOperation (hσ' : σ.beginOperation result sent resources = some σ') :
    σ'.isConnected = σ.isConnected := by
  unfold State.beginOperation at hσ'
  split at hσ'
  · unfold onReactorEventImpl handleDataTranster handleReceive at hσ'
    dsimp only at hσ'
    repeat' split at hσ'
    all_goals first
      | exact (isConnected_handleWriteEvent hσ').trans rfl
      | cases hσ'
    all_goals rfl
  · cases hσ'
    rfl

/-- The start of a receive does not connect the socket. -/
theorem isConnected_receiveAsync {function : ReceiveFunction} {size : ℕ}
    (hσ' : σ.receiveAsync function size result = some σ') : σ'.isConnected = σ.isConnected := by
  unfold State.receiveAsync State.doReceiveAsync at hσ'
  dsimp only at hσ'
  repeat' split at hσ'
  all_goals cases hσ'
  all_goals rfl

/-- The start of a send does not connect the socket. -/
theorem isConnected_sendAsync {size : ℕ} (hσ' : σ.sendAsync size sent resources = some σ') :
    σ'.isConnected = σ.isConnected := by
  unfold State.sendAsync at hσ'
  repeat' split at hσ'
  all_goals cases hσ'
  all_goals rfl

/-- A prompt step keeps the invariant as long as the socket is connected. -/
theorem Inv.step {a : Action} (h : σ.isConnected = true → σ.Inv) (hprompt : σ.Prompt a)
    (hσ' : σ.step a = some σ') (hconnected : σ'.isConnected = true) : σ'.Inv := by
  cases a with
  | receive function size result =>
    rw [isConnected_receiveAsync hσ'] at hconnected
    exact (h hconnected).receiveAsync hσ'
  | send size sent resources =>
    rw [isConnected_sendAsync hσ'] at hconnected
    exact (h hconnected).sendAsync hσ'
  | arrive bytes =>
    simp only [State.step] at hσ'
    split at hσ'
    · obtain rfl := Option.some.inj hσ'
      exact (h hconnected).arrive
    · cases hσ'
  | wait others =>
    simp only [State.step] at hσ'
    split at hσ'
    · obtain rfl := Option.some.inj hσ'
      exact (h hconnected).wait others
    · cases hσ'
  | handle =>
    obtain ⟨mask, hmask, rfl⟩ := Option.map_eq_some_iff.mp hσ'
    exact (h hconnected).handleEvent hprompt hmask
  | begin result sent resources =>
    simp only [State.step] at hσ'
    split at hσ'
    · rename_i hphase
      rw [isConnected_beginOperation hσ'] at hconnected
      exact (h hconnected).beginOperation hconnected hphase hσ'
    · cases hσ'
  | resume sent resources =>
    simp only [State.step] at hσ'
    split at hσ'
    · rename_i events hphase
      rw [isConnected_handleWriteEvent hσ'] at hconnected
      have hrunning := (h hconnected).running (by simp [hphase]) (by simp [hphase])
      exact hrunning.handleWriteEvent hσ'
    · cases hσ'
  | finish =>
    simp only [State.step] at hσ'
    split at hσ'
    · rename_i hphase
      obtain rfl := Option.some.inj hσ'
      have hrunning := (h hconnected).running (by simp [hphase]) (by simp [hphase])
      exact hrunning.finishOperation
    · cases hσ'
  | onCloseEvent =>
    -- the socket is not connected any more
    obtain rfl := Option.some.inj hσ'
    cases hconnected
  | deregister =>
    -- it was closed before
    simp only [State.step] at hσ'
    split at hσ'
    · cases hσ'
    · rename_i hclosed
      obtain rfl := Option.some.inj hσ'
      exact absurd hconnected hclosed

/-- The invariant holds after the registration: what is there already is an edge. -/
theorem Inv.init (h : machine.init σ) : σ.Inv := by
  obtain ⟨r, reactor, fd, reactorHandle, buffer, hregister, rfl⟩ := h
  obtain ⟨-, -, -, used, rfl⟩ := EpollReactor.registerImpl_ok (by decide) hregister
  have hunreported : 0 < buffer → decide (0 < buffer) = true := by simp
  refine ⟨⟨?_, ?_, ?_⟩, ?_, ?_, ?_⟩
  · simp [entry, EpollReactor.registeredEntry]
  · exact fun hdata hreported => absurd (.inl (hunreported hdata)) hreported
  · exact fun _ hnone => absurd hnone (Option.not_mem_none _)
  · exact fun hongoing => Bool.noConfusion hongoing
  · simp [entry, EpollReactor.registeredEntry]
  · exact fun hongoing => Bool.noConfusion hongoing

/-- The invariant of every state that is reached by prompt steps. -/
theorem Inv.of_reachable (hσ : machine.ReachableIn Prompt σ) (hconnected : σ.isConnected = true) :
    σ.Inv := by
  refine hσ.invariant (I := fun σ => σ.isConnected = true → σ.Inv) ?_ ?_ hconnected
  · exact fun σ hinit _ => Inv.init hinit
  · exact fun σ a σ' h hprompt hσ' => Inv.step h hprompt hσ'

end State

/-- In every run in which no event is handled while a completion handler of the socket is running
that has left a receive pending with data in the buffer, no read edge is lost: data that no edge
tells of is read for the pending receive by the queued operation, or else is known to the next
receive. -/
theorem no_lost_edge {σ : State} (hσ : machine.ReachableIn State.Prompt σ) : σ.NoLostEdge :=
  fun hconnected => (State.Inv.of_reachable hσ hconnected).noLostEdge hconnected

/-- A reactor with one entry, which is that of the socket. -/
def registered : State where
  reactor := (({ size := 1, kernel := { isOpen := fun _ => true } } :
    EpollReactor Unit).registerImpl .ioEvent 7 kReadEdge () true).1
  reactorHandle := 0

/-- It is an initial state. -/
theorem machine_init_registered : machine.init registered :=
  ⟨{ size := 1, kernel := { isOpen := fun _ => true } }, _, 7, 0, 0, rfl, rfl⟩

/-- The completion handler of a receive starts the next one, which finds nothing. The data that
arrives after the operation has ended posts the operation again. -/
theorem no_lost_edge_rearmed :
    ∃ σ, machine.ReachableIn State.Prompt σ ∧ σ.isConnected = true ∧
      σ.recvOperation.operationOngoing = true ∧ 0 < σ.buffer ∧ ¬ σ.Unreported ∧ σ.NoLostEdge := by
  have hσ := ToMathlib.Machine.reachableIn_get_run (M := machine) (C := State.Prompt)
    (s := registered)
    (l := [.receive .receiveAsync 4 .busy, .arrive 4, .wait 0, .handle,
      .begin (.bytes 4) .busy true,
      .receive .receiveAsync 4 .busy, .resume .busy true, .arrive 2, .wait 0, .handle])
    machine_init_registered (by decide)
  exact ⟨_, hσ, by decide, by decide, by decide, by decide, no_lost_edge hσ⟩

/-- The completion handler of a receive starts the next one, which finds nothing. The event of the
data that arrives before the completion handler has returned finds the operation posted and is only
recorded; the operation ends without looking at it. -/
theorem no_lost_edge_event_during_callback :
    ∃ σ, machine.Reachable σ ∧ σ.phase = .idle ∧ ¬ σ.NoLostEdge := by
  have hσ := ToMathlib.Machine.reachableIn_get_run (M := machine) (C := ToMathlib.Machine.Always)
    (s := registered)
    (l := [.receive .receiveAsync 4 .busy, .arrive 4, .wait 0, .handle,
      .begin (.bytes 4) .busy true,
      .receive .receiveAsync 4 .busy, .arrive 2, .wait 0, .handle, .resume .busy true])
    machine_init_registered (by decide)
  refine ⟨_, hσ, by decide, fun h => ?_⟩
  exact absurd (h (by decide) (by decide) (by decide)).2 (by decide)

end Asrt.Socket.Stream
