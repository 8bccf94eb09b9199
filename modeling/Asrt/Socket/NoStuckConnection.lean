import Asrt.Reactor.Registration
import Asrt.Socket.Acceptor

/-!
# When the acceptor leaves no connection stuck

An event of the listening socket stands for all connections that arrived since the last one, but the
acceptor takes one connection per event and then waits for the next. It also ignores an event that
is handled while its operation is still posted. And an `AcceptAsync()` that finds a connection at
once, for a peer that is to be registered, blocks the acceptor for ever. In a run in which this does
not happen, in which every accept call empties the backlog or leaves an edge to be handled, and in
which no event is ignored on account of the posted operation while connections wait, no connection
is ever stuck.
-/

namespace Asrt.Socket.Acceptor

open Reactor

namespace State

variable {σ σ' : State} {listens registers : Bool} {result : AcceptResult}

/-- The acceptor's entry in the operation table. -/
abbrev entry (σ : State) : OperationEntry Unit := σ.reactor.operations σ.reactorHandle

/-- The accept call empties the backlog, or an edge is left to be handled. -/
def Drains (σ : State) (result : AcceptResult) : Prop :=
  σ.backlog ≤ result.taken ∨ σ.edge = true ∨ σ.fetched = true

/-- The acceptor will look at the backlog if it is not empty: because of an edge, or because the
next `AcceptAsync()` tries at once. -/
def Noticed (σ : State) : Prop :=
  σ.backlog = 0 ∨ σ.edge = true ∨ σ.fetched = true ∨
    σ.speculativeAccept = true ∧ σ.acceptorSockstate = .kListening

/-- The condition on a step. Accept calls are those of the operation and those of an `AcceptAsync()`
that follows an ignored event, which must not find a connection for a peer that is to be registered.
An event is ignored by the reactor if it is handled after the operation's accept call and before the
operation ends. -/
def Prompt (σ : State) : Action → Prop
  | .accept result => σ.Drains result
  | .acceptAsync _ result registers | .reissue _ result registers
  | .immediate _ result registers =>
    σ.speculativeAccept = true → σ.acceptorSockstate = .kListening →
      σ.Drains result ∧ (result = .connection → registers = false)
  | .handle =>
    match σ.phase with
    | .accepted _ | .callback | .returning => { σ with fetched := false }.Noticed
    | _ => True
  | _ => True

instance (σ : State) (result : AcceptResult) : Decidable (σ.Drains result) :=
  inferInstanceAs (Decidable (_ ∨ _))

instance (σ : State) : Decidable σ.Noticed :=
  inferInstanceAs (Decidable (_ ∨ _))

instance (σ : State) : (a : Action) → Decidable (σ.Prompt a)
  | .accept _ => inferInstanceAs (Decidable (State.Drains _ _))
  | .acceptAsync _ _ _ | .reissue _ _ _ | .immediate _ _ _ =>
    inferInstanceAs (Decidable (_ → _ → _))
  | .handle =>
    match hphase : σ.phase with
    | .accepted _ | .callback | .returning =>
      decidable_of_iff ({ σ with fetched := false }.Noticed) (by simp [Prompt, hphase])
    | .idle | .queued | .accepting => .isTrue (by simp [Prompt, hphase])
  | .listen _ | .arrive | .wait | .begin | .resume | .finish | .close =>
    inferInstanceAs (Decidable True)

/-! ## The invariant -/

/-- What holds in each phase of the operation. The entry monitors read events except between the
report of one and the next request. -/
def PhaseInv (σ : State) : Prop :=
  match σ.phase with
  | .idle =>
    σ.entry.handlerPosted = false ∧ σ.entry.monitoredEvents.hasReadEvent = true ∧ σ.Noticed
  | .queued =>
    σ.entry.handlerPosted = true ∧ σ.entry.monitoredEvents.hasReadEvent = true ∧
      σ.entry.capturedEvents = .ofMask EPOLLIN
  | .accepting =>
    σ.entry.handlerPosted = true ∧ σ.acceptorSockstate = .kAccepting
  | .accepted _ =>
    σ.entry.handlerPosted = true ∧ σ.acceptorSockstate = .kAccepting ∧ σ.Noticed
  | .callback =>
    σ.entry.handlerPosted = true ∧ σ.speculativeAccept = false ∧
      (σ.acceptorSockstate = .kListening ∨
        σ.acceptorSockstate = .kAccepting ∧ σ.entry.monitoredEvents.hasReadEvent = true) ∧
      σ.Noticed
  | .returning =>
    σ.entry.handlerPosted = true ∧ σ.entry.monitoredEvents.hasReadEvent = true ∧ σ.Noticed

/-- The invariant of a socket that has not been closed. -/
structure Inv (σ : State) : Prop where
  valid : σ.entry.valid = true
  bound : σ.acceptorSockstate = .kBound → σ.backlog = 0
  /-- No request that follows an ignored event is left to the reactor without a try. -/
  accepting : σ.acceptorSockstate = .kAccepting → σ.speculativeAccept = false
  free : σ.blocked = false
  phase : σ.PhaseInv

/-- No connection is stuck under the invariant. -/
theorem Inv.not_stuck (h : σ.Inv) : ¬ σ.Stuck := by
  rintro ⟨hstate, hbacklog, hedge, hfetched, hphase⟩
  have hinv := h.phase
  simp only [PhaseInv, hphase] at hinv
  rcases hinv.2.2 with hempty | he | hf | ⟨-, hlistening⟩
  · omega
  · simp [hedge] at he
  · simp [hfetched.resolve_right (by simp [h.free])] at hf
  · rw [hstate] at hlistening
    cases hlistening

/-- A newly registered acceptor. -/
theorem Inv.init {r reactor : EpollReactor Unit} {fd : NativeHandle} {reactorHandle : HandlerTag}
    (h : r.registerImpl .ioEvent fd kReadEdge () true = (reactor, .ok reactorHandle)) :
    Inv { reactor, reactorHandle } := by
  obtain ⟨-, -, -, used, rfl⟩ := EpollReactor.registerImpl_ok (by decide) h
  refine ⟨?_, fun _ => rfl, fun _ => rfl, rfl, ?_⟩
  · simp [entry, EpollReactor.registeredEntry]
  · simp only [PhaseInv, entry, Function.update_self, EpollReactor.registeredEntry, true_and]
    exact ⟨by decide, .inl rfl⟩

/-! ## Requests -/

/-- The request is left to the reactor, or, after an ignored event, tried at once. -/
inductive Request (σ : State) (result : AcceptResult) (registers : Bool) : State → Prop
  | left (hspec : σ.speculativeAccept = false) :
    Request σ result registers { σ with acceptorSockstate := .kAccepting }.startAsyncAccept
  | busy {backlog : ℕ} (hspec : σ.speculativeAccept = true)
      (hbacklog : doAccept σ.backlog result = some backlog) :
    Request σ result registers { σ with
      acceptorSockstate := .kAccepting
      backlog
      speculativeAccept := false }.startAsyncAccept
  | posted {backlog : ℕ} (hspec : σ.speculativeAccept = true)
      (hbacklog : doAccept σ.backlog result = some backlog) :
    Request σ result registers { σ with
      acceptorSockstate := .kAccepting
      backlog
      speculativeAccept := false
      immediateJobs := σ.immediateJobs + 1 }
  | blocked {backlog : ℕ} (hspec : σ.speculativeAccept = true)
      (hbacklog : doAccept σ.backlog result = some backlog) (hresult : result = .connection)
      (hregisters : registers = true) :
    Request σ result registers { σ with
      acceptorSockstate := .kAccepting
      backlog
      blocked := true }

/-- `DoAsyncAccept()` of a request that is taken. -/
theorem request_of_doAsyncAccept
    (h : { σ with acceptorSockstate := .kAccepting }.doAsyncAccept result registers = some σ') :
    Request σ result registers σ' := by
  simp only [doAsyncAccept] at h
  split at h
  · rename_i hspec
    obtain ⟨backlog, hbacklog, hσ'⟩ := Option.map_eq_some_iff.mp h
    split_ifs at hσ' with hblocks hbusy
    · obtain rfl := hσ'
      exact .blocked hspec hbacklog hblocks.1 hblocks.2
    · obtain rfl := hσ'
      exact .busy hspec hbacklog
    · obtain rfl := hσ'
      exact .posted hspec hbacklog
  · rename_i hspec
    obtain rfl := Option.some.inj h
    exact .left (by simpa using hspec)

/-- What `AcceptAsync()` can do: refuse or take the request. -/
theorem acceptAsync_cases (h : σ.acceptAsync listens result registers = some σ') :
    (σ' = σ ∧ σ.acceptorSockstate ≠ .kListening) ∨
      (σ.acceptorSockstate = .kListening ∨ σ.acceptorSockstate = .kBound) ∧
        Request σ result registers σ' := by
  simp only [acceptAsync] at h
  split at h
  · rename_i hstate
    exact .inr ⟨.inl hstate, request_of_doAsyncAccept h⟩
  · rename_i hstate
    split at h
    · exact .inr ⟨.inr hstate, request_of_doAsyncAccept h⟩
    · exact .inl ⟨(Option.some.inj h).symm, by simp [hstate]⟩
  · rename_i hstate
    exact .inl ⟨(Option.some.inj h).symm, by simp [hstate]⟩
  · rename_i hstate
    exact .inl ⟨(Option.some.inj h).symm, by simp [hstate]⟩

/-- A request that is left to the reactor makes the entry monitor read events. -/
theorem startAsyncAccept_entry (σ : State) :
    σ.startAsyncAccept.entry = { σ.entry with
      monitoredEvents := σ.entry.monitoredEvents.union .kRead
      asyncOperationOngoing := true } :=
  EpollReactor.onStartOfOperation_entry _ _ _ _

/-- After the read request the entry monitors read events. -/
theorem startAsyncAccept_armed (σ : State) :
    σ.startAsyncAccept.entry.monitoredEvents.hasReadEvent = true := by
  rw [startAsyncAccept_entry]
  rw [Events.hasReadEvent_union]
  exact Bool.or_eq_true_iff.mpr (.inr (by decide))

/-- An accept call that meets the condition leaves every connection noticed. -/
theorem Drains.backlog (h : σ.Drains result) {backlog : ℕ}
    (hbacklog : doAccept σ.backlog result = some backlog) :
    backlog = 0 ∨ σ.edge = true ∨ σ.fetched = true := by
  simp only [doAccept] at hbacklog
  split at hbacklog
  · obtain rfl := Option.some.inj hbacklog
    exact h.imp_left Nat.sub_eq_zero_of_le
  · cases hbacklog

/-- Without an ignored event it is an edge that makes the acceptor look at the backlog. -/
theorem Noticed.pending (h : σ.Noticed) (hspec : σ.speculativeAccept = false) :
    σ.backlog = 0 ∨ σ.edge = true ∨ σ.fetched = true := by
  rcases h with hempty | hedge | hfetched | ⟨hs, -⟩
  · exact .inl hempty
  · exact .inr (.inl hedge)
  · exact .inr (.inr hfetched)
  · simp [hspec] at hs

/-- A request that is taken finds the operation before its accept call or after it, and may leave it
there. -/
theorem PhaseInv.request (h : σ.PhaseInv) (hphase : σ'.phase = σ.phase)
    (hposted : σ'.entry.handlerPosted = σ.entry.handlerPosted)
    (hcaptured : σ'.entry.capturedEvents = σ.entry.capturedEvents)
    (hstate : σ.acceptorSockstate ≠ .kAccepting) (hstate' : σ'.acceptorSockstate = .kAccepting)
    (hspec' : σ'.speculativeAccept = false)
    (harmed : σ'.entry.monitoredEvents.hasReadEvent = true)
    (hnoticed : σ.Noticed → σ'.Noticed) : σ'.PhaseInv := by
  cases hp : σ.phase with
  | idle =>
    simp only [PhaseInv, hp, hphase] at h ⊢
    exact ⟨hposted.trans h.1, harmed, hnoticed h.2.2⟩
  | queued =>
    simp only [PhaseInv, hp, hphase] at h ⊢
    exact ⟨hposted.trans h.1, harmed, hcaptured.trans h.2.2⟩
  | accepting =>
    simp only [PhaseInv, hp] at h
    exact absurd h.2 hstate
  | accepted result =>
    simp only [PhaseInv, hp] at h
    exact absurd h.2.1 hstate
  | callback =>
    simp only [PhaseInv, hp, hphase] at h ⊢
    exact ⟨hposted.trans h.1, hspec', .inr ⟨hstate', harmed⟩, hnoticed h.2.2.2⟩
  | returning =>
    simp only [PhaseInv, hp, hphase] at h ⊢
    exact ⟨hposted.trans h.1, harmed, hnoticed h.2.2⟩

/-- An ignored event leaves the entry monitoring read events. -/
theorem PhaseInv.armed_of_speculative (h : σ.PhaseInv) (hspec : σ.speculativeAccept = true)
    (hstate : σ.acceptorSockstate ≠ .kAccepting) :
    σ.entry.monitoredEvents.hasReadEvent = true := by
  cases hp : σ.phase <;> simp only [PhaseInv, hp] at h
  case idle => exact h.2.1
  case queued => exact h.2.1
  case accepting => exact absurd h.2 hstate
  case accepted => exact absurd h.2.1 hstate
  case callback => simp [hspec] at h
  case returning => exact h.2.1

/-- There is no connection for a socket that is bound only. -/
theorem Inv.not_connection (h : σ.Inv) (hbound : σ.acceptorSockstate = .kBound) {backlog : ℕ}
    (hbacklog : doAccept σ.backlog result = some backlog) : result ≠ .connection := by
  rintro rfl
  simp [doAccept, h.bound hbound, AcceptResult.taken] at hbacklog

/-- A request from outside the completion handler keeps the invariant. -/
theorem Inv.acceptAsync (h : σ.Inv)
    (hprompt : σ.speculativeAccept = true → σ.acceptorSockstate = .kListening →
      σ.Drains result ∧ (result = .connection → registers = false))
    (hσ' : σ.acceptAsync listens result registers = some σ') : σ'.Inv := by
  rcases acceptAsync_cases hσ' with ⟨rfl, -⟩ | ⟨hstate, hrequest⟩
  · exact h
  have hnot : σ.acceptorSockstate ≠ .kAccepting := by
    rcases hstate with hs | hs <;> simp [hs]
  -- an accept that is tried at once leaves nothing unnoticed
  have hnoticed (hspec : σ.speculativeAccept = true) {backlog : ℕ}
      (hbacklog : doAccept σ.backlog result = some backlog) :
      backlog = 0 ∨ σ.edge = true ∨ σ.fetched = true := by
    rcases hstate with hs | hs
    · exact (hprompt hspec hs).1.backlog hbacklog
    · have hdrained : σ.Drains result := by
        left
        rw [h.bound hs]
        exact Nat.zero_le _
      exact hdrained.backlog hbacklog
  cases hrequest with
  | left hspec =>
    refine ⟨?_, nofun, fun _ => hspec, h.free, ?_⟩
    · rw [startAsyncAccept_entry]
      exact h.valid
    · refine h.phase.request rfl ?_ ?_ hnot rfl hspec (startAsyncAccept_armed _) ?_
      · rw [startAsyncAccept_entry]
      · rw [startAsyncAccept_entry]
      · intro hnoticed
        exact (hnoticed.pending hspec).imp_right fun h => h.imp_right .inl
  | busy hspec hbacklog =>
    refine ⟨?_, nofun, fun _ => rfl, h.free, ?_⟩
    · rw [startAsyncAccept_entry]
      exact h.valid
    · refine h.phase.request rfl ?_ ?_ hnot rfl rfl (startAsyncAccept_armed _) fun _ => ?_
      · rw [startAsyncAccept_entry]
      · rw [startAsyncAccept_entry]
      · exact (hnoticed hspec hbacklog).imp_right fun h => h.imp_right .inl
  | posted hspec hbacklog =>
    refine ⟨h.valid, nofun, fun _ => rfl, h.free, ?_⟩
    refine h.phase.request rfl rfl rfl hnot rfl rfl (h.phase.armed_of_speculative hspec hnot)
      fun _ => ?_
    exact (hnoticed hspec hbacklog).imp_right fun h => h.imp_right .inl
  | blocked hspec hbacklog hresult hregisters =>
    rcases hstate with hs | hs
    · simp [(hprompt hspec hs).2 hresult] at hregisters
    · exact absurd hresult (h.not_connection hs hbacklog)

/-- The request that the completion handler makes keeps the invariant. -/
theorem Inv.reissue (h : σ.Inv) (hp : σ.phase = .callback)
    (hσ' : { σ with phase := .returning }.acceptAsync listens result registers = some σ') :
    σ'.Inv := by
  have hphase := h.phase
  simp only [PhaseInv, hp] at hphase
  obtain ⟨hposted, hspec, hstate, hnoticed⟩ := hphase
  rcases acceptAsync_cases hσ' with ⟨rfl, hnot⟩ | ⟨-, hrequest⟩
  · -- refused: another thread has made its request already
    rcases hstate with hlistening | ⟨-, harmed⟩
    · exact absurd hlistening hnot
    · exact ⟨h.valid, h.bound, h.accepting, h.free, hposted, harmed, hnoticed⟩
  cases hrequest with
  | left =>
    refine ⟨?_, nofun, fun _ => hspec, h.free, ?_, startAsyncAccept_armed _, ?_⟩
    · rw [startAsyncAccept_entry]
      exact h.valid
    · rw [startAsyncAccept_entry]
      exact hposted
    · exact (hnoticed.pending hspec).imp_right fun h => h.imp_right .inl
  | busy hspec' | posted hspec' | blocked hspec' => simp [hspec] at hspec'

/-! ## Events and the operation -/

/-- A change of the kernel's side that leaves every connection noticed keeps the invariant. -/
theorem Inv.kernel (h : σ.Inv) {backlog : ℕ} {edge fetched : Bool}
    (hbound : σ.acceptorSockstate = .kBound → backlog = 0)
    (hnoticed : backlog = 0 ∨ edge = true ∨ fetched = true) :
    { σ with backlog, edge, fetched }.Inv := by
  refine ⟨h.valid, hbound, h.accepting, h.free, ?_⟩
  have hnoticed' : { σ with backlog, edge, fetched }.Noticed :=
    hnoticed.imp_right fun h => h.imp_right .inl
  have hphase := h.phase
  cases hp : σ.phase <;> simp only [PhaseInv, hp] at hphase ⊢
  case idle => exact ⟨hphase.1, hphase.2.1, hp ▸ hnoticed'⟩
  case queued => exact hphase
  case accepting => exact hphase
  case accepted => exact ⟨hphase.1, hphase.2.1, hp ▸ hnoticed'⟩
  case callback => exact ⟨hphase.1, hphase.2.1, hphase.2.2.1, hp ▸ hnoticed'⟩
  case returning => exact ⟨hphase.1, hphase.2.1, hp ▸ hnoticed'⟩

/-- The event of an acceptor whose operation is posted is only recorded. -/
theorem handleEvent_of_posted (hvalid : σ.entry.valid = true)
    (hposted : σ.entry.handlerPosted = true) :
    σ.handleEvent = { σ with
      reactor := σ.reactor.setEntry σ.reactorHandle
        { σ.entry with capturedEvents := .ofMask EPOLLIN }
      fetched := false } := by
  simp [handleEvent, EpollReactor.handleSingleEvent, hvalid, hposted]

/-- The event of an acceptor whose operation is not posted posts it. -/
theorem handleEvent_of_idle (hvalid : σ.entry.valid = true)
    (hposted : σ.entry.handlerPosted = false)
    (harmed : σ.entry.monitoredEvents.hasReadEvent = true) :
    σ.handleEvent = { σ with
      reactor := σ.reactor.setEntry σ.reactorHandle
        { σ.entry with capturedEvents := .ofMask EPOLLIN, handlerPosted := true }
      fetched := false
      phase := .queued } := by
  have hread : ((Events.ofMask EPOLLIN).intersection
      σ.entry.monitoredEvents).hasReadEvent = true := by
    rw [Events.hasReadEvent_intersection, harmed]
    rfl
  have hreport := Events.empty_of_hasReadEvent hread
  simp [handleEvent, EpollReactor.handleSingleEvent, hvalid, hposted, hreport]

/-- Handling an event keeps the invariant. -/
theorem Inv.handleEvent (h : σ.Inv) (hprompt : σ.Prompt .handle) : σ.handleEvent.Inv := by
  have hphase := h.phase
  cases hp : σ.phase <;> simp only [PhaseInv, hp] at hphase <;>
    simp only [Prompt, hp] at hprompt
  case idle =>
    rw [handleEvent_of_idle h.valid hphase.1 hphase.2.1]
    refine ⟨?_, h.bound, h.accepting, h.free, ?_, ?_, ?_⟩
    · simp [entry, h.valid]
    · simp [entry]
    · simpa [entry] using hphase.2.1
    · simp [entry]
  all_goals
    rw [handleEvent_of_posted h.valid hphase.1]
    refine ⟨by simp [entry, h.valid], h.bound, h.accepting, h.free, ?_⟩
    simp only [PhaseInv, hp]
  case queued =>
    exact ⟨by simpa [entry] using hphase.1, by simpa [entry] using hphase.2.1, by simp [entry]⟩
  case accepting => exact ⟨by simpa [entry] using hphase.1, hphase.2⟩
  case accepted => exact ⟨by simpa [entry] using hphase.1, hphase.2.1, hprompt⟩
  case callback =>
    exact ⟨by simpa [entry] using hphase.1, hphase.2.1, by simpa [entry] using hphase.2.2.1,
      hprompt⟩
  case returning =>
    exact ⟨by simpa [entry] using hphase.1, by simpa [entry] using hphase.2.1, hprompt⟩

/-- The start of the operation keeps the invariant: with a request pending the accept call is made,
and otherwise the event is remembered. -/
theorem Inv.beginOperation (h : σ.Inv) (hdisc : σ.acceptorSockstate ≠ .kDisconnected)
    (hp : σ.phase = .queued) : σ.beginOperation.Inv := by
  have hphase := h.phase
  simp only [PhaseInv, hp] at hphase
  obtain ⟨hposted, harmed, hcaptured⟩ := hphase
  have hread : (σ.entry.capturedEvents.intersection
      σ.entry.monitoredEvents).hasReadEvent = true := by
    rw [hcaptured, Events.hasReadEvent_intersection, harmed]
    rfl
  simp only [State.beginOperation,
    EpollReactor.beginOperation_of_report h.valid (Events.empty_of_hasReadEvent hread)]
  simp only [onReactorEventImpl]
  split
  · rename_i hstate
    refine ⟨?_, h.bound, h.accepting, h.free, ?_, hstate⟩
    · simpa [entry] using h.valid
    · simpa [entry] using hposted
  · rename_i hstate
    refine ⟨?_, h.bound, fun hs => absurd hs hstate, h.free, ?_, ?_, ?_⟩
    · simpa [entry, EpollReactor.onEventIgnored, EpollReactor.onJobArrival] using h.valid
    · simpa [entry, EpollReactor.onEventIgnored, EpollReactor.onJobArrival] using hposted
    · -- the ignored event is monitored again
      simp only [entry, EpollReactor.onEventIgnored, EpollReactor.onJobArrival,
        EpollReactor.setEntry_operations, Function.update_self]
      rw [Events.hasReadEvent_union, hread, Bool.or_true]
    · cases hs : σ.acceptorSockstate with
      | kDisconnected => exact absurd hs hdisc
      | kBound => exact .inl (h.bound hs)
      | kListening => exact .inr (.inr (.inr ⟨rfl, rfl⟩))
      | kAccepting => exact absurd hs hstate

/-- The accept call of the operation keeps the invariant. -/
theorem Inv.accept (h : σ.Inv) (hp : σ.phase = .accepting) (hdrains : σ.Drains result)
    {backlog : ℕ} (hbacklog : doAccept σ.backlog result = some backlog) :
    { σ with backlog, phase := .accepted result }.Inv := by
  have hphase := h.phase
  simp only [PhaseInv, hp] at hphase
  refine ⟨h.valid, fun hs => ?_, h.accepting, h.free, hphase.1, hphase.2, ?_⟩
  · exact absurd (hphase.2.symm.trans hs) nofun
  · exact (hdrains.backlog hbacklog).imp_right fun h => h.imp_right .inl

/-- `HandleAysncAccept()` keeps the invariant when it goes on. -/
theorem Inv.resumeAccept (h : σ.Inv) (hp : σ.phase = .accepted result)
    (hσ' : σ.resumeAccept result = some σ') : σ'.Inv := by
  have hphase := h.phase
  simp only [PhaseInv, hp] at hphase
  obtain ⟨hposted, hstate, hnoticed⟩ := hphase
  have hspec := h.accepting hstate
  simp only [State.resumeAccept] at hσ'
  split at hσ'
  · rename_i hdisc
    exact absurd (hstate.symm.trans hdisc) nofun
  split at hσ'
  · obtain rfl := Option.some.inj hσ'
    have hentry := EpollReactor.onStartOfOperation_entry σ.reactor σ.reactorHandle .kRead true
    refine ⟨?_, h.bound, h.accepting, h.free, ?_, ?_, hnoticed⟩
    · simpa only [entry, hentry] using h.valid
    · simpa only [entry, hentry] using hposted
    · simp only [entry, hentry, Events.hasReadEvent_union]
      exact Bool.or_eq_true_iff.mpr (.inr (by decide))
  split at hσ'
  · obtain rfl := Option.some.inj hσ'
    refine ⟨h.valid, nofun, fun _ => hspec, h.free, hposted, hspec, .inl rfl, ?_⟩
    exact (hnoticed.pending hspec).imp_right fun h => h.imp_right .inl
  · cases hσ'

/-- The end of the operation keeps the invariant. -/
theorem Inv.finish (h : σ.Inv) (hp : σ.phase = .returning) :
    { σ with
      reactor := σ.reactor.finishOperation σ.reactorHandle
      phase := .idle }.Inv := by
  have hphase := h.phase
  simp only [PhaseInv, hp] at hphase
  simp only [EpollReactor.finishOperation_eq]
  refine ⟨?_, h.bound, h.accepting, h.free, ?_, ?_, hphase.2.2⟩
  · simpa [entry] using h.valid
  · simp [entry]
  · simpa [entry] using hphase.2.1

/-- A closed acceptor stays closed. -/
theorem step_disconnected {a : Action} (hdisc : σ.acceptorSockstate = .kDisconnected)
    (hσ' : σ.step a = some σ') : σ'.acceptorSockstate = .kDisconnected := by
  obtain ⟨-, hσ'⟩ := Option.ite_none_left_eq_some.mp hσ'
  cases a with
  | listen listens =>
    obtain rfl := Option.some.inj hσ'
    simp [State.listen, hdisc]
  | acceptAsync listens result registers =>
    obtain rfl : σ = σ' := by simpa [State.perform, State.acceptAsync, hdisc] using hσ'
    exact hdisc
  | arrive => simp [State.perform, hdisc] at hσ'
  | wait =>
    obtain ⟨-, ⟨⟩⟩ := Option.ite_none_right_eq_some.mp hσ'
    exact hdisc
  | handle =>
    obtain ⟨-, ⟨⟩⟩ := Option.ite_none_right_eq_some.mp hσ'
    exact hdisc
  | begin =>
    obtain ⟨-, ⟨⟩⟩ := Option.ite_none_right_eq_some.mp hσ'
    simp only [State.beginOperation]
    split
    · -- the event of a closed acceptor is only noted
      simp [onReactorEventImpl, hdisc]
    · exact hdisc
  | accept result =>
    obtain ⟨-, hmap⟩ := Option.ite_none_right_eq_some.mp hσ'
    obtain ⟨backlog, -, rfl⟩ := Option.map_eq_some_iff.mp hmap
    exact hdisc
  | resume =>
    -- an accept that was under way when the acceptor was closed is not reported
    simp only [State.perform] at hσ'
    split at hσ'
    · obtain rfl : _ = σ' := by simpa [State.resumeAccept, hdisc] using hσ'
      rfl
    · cases hσ'
  | reissue listens result registers =>
    obtain ⟨-, hreq⟩ := Option.ite_none_right_eq_some.mp hσ'
    obtain rfl : _ = σ' := by simpa [State.acceptAsync, hdisc] using hreq
    rfl
  | finish =>
    obtain ⟨-, ⟨⟩⟩ := Option.ite_none_right_eq_some.mp hσ'
    exact hdisc
  | immediate listens result registers =>
    obtain ⟨-, hreq⟩ := Option.ite_none_right_eq_some.mp hσ'
    obtain rfl : _ = σ' := by simpa [State.acceptAsync, hdisc] using hreq
    rfl
  | close =>
    obtain rfl := Option.some.inj hσ'
    rfl

/-- `Listen()` keeps the invariant: nothing has happened before it but an event of the unbound
socket. -/
theorem Inv.listen (h : σ.Inv) : (σ.listen listens).Inv := by
  simp only [State.listen]
  split
  · rename_i hlisten
    have hbound := hlisten.1
    have hnoticed : { σ with acceptorSockstate := .kListening }.Noticed := .inl (h.bound hbound)
    refine ⟨h.valid, nofun, nofun, h.free, ?_⟩
    have hphase := h.phase
    cases hp : σ.phase <;> simp only [PhaseInv, hp] at hphase ⊢
    case idle => exact ⟨hphase.1, hphase.2.1, hp ▸ hnoticed⟩
    case queued => exact hphase
    -- a bound socket has no request that could be served
    case accepting => exact absurd (hbound.symm.trans hphase.2) nofun
    case accepted => exact absurd (hbound.symm.trans hphase.2.1) nofun
    case callback =>
      rcases hphase.2.2.1 with hs | ⟨hs, -⟩
      · exact absurd (hbound.symm.trans hs) nofun
      · exact absurd (hbound.symm.trans hs) nofun
    case returning => exact ⟨hphase.1, hphase.2.1, hp ▸ hnoticed⟩
  · exact h

/-- One step keeps the invariant. -/
theorem Inv.step (h : σ.Inv) (hdisc : σ.acceptorSockstate ≠ .kDisconnected) {a : Action}
    (hprompt : σ.Prompt a) (hσ' : σ.step a = some σ') :
    σ'.acceptorSockstate = .kDisconnected ∨ σ'.Inv := by
  obtain ⟨-, hσ'⟩ := Option.ite_none_left_eq_some.mp hσ'
  cases a with
  | listen listens =>
    obtain rfl := Option.some.inj hσ'
    exact .inr h.listen
  | acceptAsync listens result registers => exact .inr (h.acceptAsync hprompt hσ')
  | arrive =>
    obtain ⟨hstate, ⟨⟩⟩ := Option.ite_none_right_eq_some.mp hσ'
    refine .inr (h.kernel (fun hs => ?_) (.inr (.inl rfl)))
    rcases hstate with hl | hl <;> simp [hl] at hs
  | wait =>
    obtain ⟨-, ⟨⟩⟩ := Option.ite_none_right_eq_some.mp hσ'
    exact .inr (h.kernel h.bound (.inr (.inr rfl)))
  | handle =>
    obtain ⟨-, ⟨⟩⟩ := Option.ite_none_right_eq_some.mp hσ'
    exact .inr (h.handleEvent hprompt)
  | begin =>
    obtain ⟨hp, ⟨⟩⟩ := Option.ite_none_right_eq_some.mp hσ'
    exact .inr (h.beginOperation hdisc hp)
  | accept result =>
    obtain ⟨hp, hmap⟩ := Option.ite_none_right_eq_some.mp hσ'
    obtain ⟨backlog, hbacklog, rfl⟩ := Option.map_eq_some_iff.mp hmap
    exact .inr (h.accept hp hprompt hbacklog)
  | resume =>
    simp only [State.perform] at hσ'
    split at hσ'
    · rename_i result hp
      exact .inr (h.resumeAccept hp hσ')
    · cases hσ'
  | reissue listens result registers =>
    obtain ⟨hp, hreq⟩ := Option.ite_none_right_eq_some.mp hσ'
    exact .inr (h.reissue hp hreq)
  | finish =>
    obtain ⟨hp, ⟨⟩⟩ := Option.ite_none_right_eq_some.mp hσ'
    exact .inr (h.finish hp)
  | immediate listens result registers =>
    obtain ⟨-, hreq⟩ := Option.ite_none_right_eq_some.mp hσ'
    -- the invariant does not depend on the jobs of immediate completions
    have hinv : { σ with immediateJobs := σ.immediateJobs - 1 }.Inv :=
      ⟨h.valid, h.bound, h.accepting, h.free, h.phase⟩
    exact .inr (hinv.acceptAsync hprompt hreq)
  | close =>
    obtain rfl := Option.some.inj hσ'
    exact .inl rfl

/-- A reachable acceptor is closed or satisfies the invariant. -/
theorem Inv.of_reachable (hσ : machine.ReachableIn Prompt σ) :
    σ.acceptorSockstate = .kDisconnected ∨ σ.Inv := by
  refine hσ.invariant (I := fun σ => σ.acceptorSockstate = .kDisconnected ∨ σ.Inv) ?_ ?_
  · rintro _ ⟨r, reactor, fd, reactorHandle, hreg, rfl⟩
    exact .inr (.init hreg)
  · intro σ a σ' hinv hprompt hσ'
    by_cases hdisc : σ.acceptorSockstate = .kDisconnected
    · exact .inl (step_disconnected hdisc hσ')
    · exact (hinv.resolve_left hdisc).step hdisc hprompt hσ'

end State

/-! ## The result -/

/-- A reactor with four entries and the acceptor in the first of them. -/
def bound : State where
  reactor := (({ size := 4, kernel := { isOpen := fun _ => true } } :
    EpollReactor Unit).registerImpl .ioEvent 7 kReadEdge () true).1
  reactorHandle := 0

/-- It is an initial state. -/
theorem machine_init_bound : machine.init bound :=
  ⟨{ size := 4, kernel := { isOpen := fun _ => true } }, _, 7, 0, rfl, rfl⟩

/-- A connection arrives before the first request, which then waits for itself: the next one is
stuck. -/
example : ∃ σ, machine.Reachable σ ∧ σ.blocked = true ∧ σ.Stuck := by
  have hσ := ToMathlib.Machine.reachableIn_get_run (M := machine) (C := ToMathlib.Machine.Always)
    (s := bound)
    (l := [.listen true, .arrive, .wait, .handle, .begin, .finish,
      .acceptAsync true .connection true, .arrive, .wait]) machine_init_bound (by decide)
  exact ⟨_, hσ, by decide, by decide, by decide, by decide, by decide, by decide⟩

end Asrt.Socket.Acceptor
