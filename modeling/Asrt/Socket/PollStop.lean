import Asrt.Socket.PacketRing

/-!
# The stop request of the polling path

`PollReceiveBlockSync()` (`impl/basic_packet_socket.ipp`) ends its loop on request. The request sets
a flag and then calls a `std::stop_callback`, which writes to an `eventfd()`; the loop looks at the
flag before each block, and waits in `PollRead()` (`sys/syscall.hpp`) for the socket and the
`eventfd()`. The request may come at any time, from any thread or from the completion handler.

The flag and the write are two steps. A loop that sees the flag in between closes the `eventfd()`
before the callback writes to it; only the destructor of the callback waits for the write. A call
that gets no `eventfd()` returns before the loop and leaves `recv_ongoing_` set.

## Main results

- `stop_ends_poll`: the request is not lost, `eventfd_read()` does not block, at most one more block
  is delivered, and every block that was delivered is returned to the kernel; without an
  `eventfd()`, no further receive is possible.
-/

namespace Asrt.Socket.PacketRing

namespace PollStop

open ToMathlib

/-- Where `PollReceiveBlockSync()` is. -/
inductive Phase
  /-- `recv_ongoing_` is set, and `eventfd()` is called. -/
  | creating
  /-- The `std::stop_callback` is constructed. -/
  | registering
  /-- The condition of the loop. -/
  | checking
  /-- The current block is looked at. -/
  | looking
  /-- In `poll()`. -/
  | polling
  /-- `poll()` has reported the `eventfd()`, and `eventfd_read()` is next. -/
  | interrupted
  /-- The completion handler is running. -/
  | handling
  /-- The loop has ended. -/
  | closing
  /-- The `eventfd()` is closed. -/
  | resetting
  /-- `recv_ongoing_` is reset, and the `std::stop_callback` is destroyed. -/
  | unregistering
  | ended
  /-- There was no `eventfd()`, and the call has returned the error. -/
  | refused
deriving DecidableEq, Repr

/-- The `std::stop_callback`. -/
inductive Callback
  | unregistered
  | registered
  /-- The flag is set, and the callback is to write. -/
  | called
  | returned
deriving DecidableEq, Repr

/-- `PollReceiveBlockSync()` with its stop request. -/
structure State where
  poller : Polling.State
  phase : Phase := .creating
  /-- `stop_requested()` -/
  stopRequested : Bool := false
  callback : Callback := .unregistered
  /-- The counter of the `eventfd()`. -/
  counter : ℕ := 0
  /-- The `eventfd()` is open. -/
  isOpen : Bool := false
  /-- `recv_ongoing_` -/
  recvOngoing : Bool := true
  /-- Ghost: the number of blocks that were delivered before the request. -/
  before : ℕ := poller.ring.delivered.length
  /-- Ghost: the number of writes to a descriptor that was closed. -/
  strayWrites : ℕ := 0

/-- The steps of the loop, of the kernel and of the thread that requests the stop. -/
inductive Action
  /-- The kernel fills a block. -/
  | mark (i : ℕ)
  /-- `request_stop()` sets the flag. -/
  | requestStop
  /-- The callback writes. -/
  | write
  /-- The loop goes on; `readable` is what `poll()` reports of the socket. -/
  | goOn (readable : Bool)
  /-- `eventfd()`, `poll()` or `eventfd_read()` fails. -/
  | fail
deriving DecidableEq, Repr

/-- The steps that are neither those of the kernel nor a new request. -/
def Action.Internal : Action → Prop
  | write | goOn _ => True
  | mark _ | requestStop | fail => False

namespace State

/-- `eventfd_write()` by the callback. -/
def eventfdWrite (σ : State) : State :=
  if σ.isOpen then { σ with counter := σ.counter + 1, callback := .returned }
  else { σ with strayWrites := σ.strayWrites + 1, callback := .returned }

/-- The constructor of the `std::stop_callback`. It calls the callback if the stop is requested
already. -/
def registerCallback (σ : State) : State :=
  if σ.stopRequested then { σ.eventfdWrite with phase := .checking }
  else { σ with callback := .registered, phase := .checking }

/-- `PollReceiveBlockSync()` goes on. -/
def goOn (readable : Bool) (σ : State) : Option State :=
  match σ.phase with
  | .creating => some { σ with isOpen := true, phase := .registering }
  | .registering => some σ.registerCallback
  | .checking => some { σ with phase := if σ.stopRequested then .closing else .looking }
  | .looking =>
    (σ.poller.step .poll).map fun poller =>
      { σ with poller, phase := if poller.handling then .handling else .polling }
  | .polling =>
    if 0 < σ.counter then some { σ with phase := .interrupted }
    else if readable then some { σ with phase := .checking }
    -- nothing has happened yet
    else none
  | .interrupted => if 0 < σ.counter then some { σ with counter := 0, phase := .checking } else none
  | .handling => (σ.poller.step .finish).map fun poller => { σ with poller, phase := .checking }
  | .closing => some { σ with isOpen := false, phase := .resetting }
  | .resetting => some { σ with recvOngoing := false, phase := .unregistering }
  | .unregistering =>
    match σ.callback with
    -- the destructor waits for the callback
    | .called => none
    | .unregistered | .registered => some { σ with callback := .unregistered, phase := .ended }
    | .returned => some { σ with phase := .ended }
  | .ended | .refused => none

/-- The step labelled by an action, if it is enabled. -/
def step (σ : State) : Action → Option State
  | .mark i => (σ.poller.step (.mark i)).map fun poller => { σ with poller }
  | .requestStop =>
    if σ.stopRequested then none
    else some { σ with
      stopRequested := true
      callback := if σ.callback = .registered then .called else σ.callback
      before := σ.poller.ring.delivered.length }
  | .write => if σ.callback = .called then some σ.eventfdWrite else none
  | .goOn readable => σ.goOn readable
  | .fail =>
    match σ.phase with
    | .creating => some { σ with phase := .refused }
    | .polling | .interrupted => some { σ with phase := .closing }
    | .registering | .checking | .looking | .handling | .closing | .resetting | .unregistering
    | .ended | .refused => none

end State

/-- `PollReceiveBlockSync()` as a machine. It is called when no other loop is running; the stop may
be requested already. -/
def machine : Machine State Action where
  init σ := ∃ poller stopRequested, Polling.machine.Reachable poller ∧ poller.handling = false ∧
    σ = { poller, stopRequested }
  step := State.step

/-! ## The request is not lost -/

/-- The loop has found the flag not set, and has not come back to it. -/
def Phase.Unaware : Phase → Prop
  | looking | polling | handling => True
  | creating | registering | checking | interrupted | closing | resetting | unregistering | ended
  | refused => False

/-- The `eventfd()` is there and not closed yet. -/
def Phase.BeforeClose : Phase → Prop
  | registering | checking | looking | polling | interrupted | handling | closing => True
  | creating | resetting | unregistering | ended | refused => False

/-- The callback can be called. -/
def Phase.Registered : Phase → Prop
  | checking | looking | polling | interrupted | handling | closing | resetting | unregistering =>
    True
  | creating | registering | ended | refused => False

namespace State

/-- What the callback knows of the request. -/
def CallbackSound (σ : State) : Prop :=
  match σ.callback with
  | .unregistered => ¬ σ.phase.Registered
  | .registered => σ.phase.Registered ∧ σ.stopRequested = false
  | .called => σ.phase.Registered ∧ σ.stopRequested = true
  | .returned => (σ.phase.Registered ∨ σ.phase = .ended) ∧ σ.stopRequested = true

/-- The invariant of the loop and the request. -/
structure Inv (σ : State) : Prop where
  poller : Polling.machine.Reachable σ.poller
  handling : σ.poller.handling = true ↔ σ.phase = .handling
  callback : σ.CallbackSound
  /-- A request that the loop has not seen will wake it. -/
  noticed : σ.phase.Unaware → σ.stopRequested = true → σ.callback = .called ∨ 0 < σ.counter
  interrupted : σ.phase = .interrupted → 0 < σ.counter
  isOpen : σ.phase.BeforeClose → σ.isOpen = true
  looking : σ.phase = .looking → σ.stopRequested = true →
    σ.poller.ring.delivered.length = σ.before
  delivered : σ.stopRequested = true → σ.poller.ring.delivered.length ≤ σ.before + 1
  recvOngoing : σ.recvOngoing = false ↔ σ.phase = .unregistering ∨ σ.phase = .ended

variable {σ σ' : State} {a : Action}

/-- As long as the callback is registered, it does not matter where the loop is. -/
theorem CallbackSound.congr (h : σ.CallbackSound) (hcallback : σ'.callback = σ.callback)
    (hstop : σ'.stopRequested = σ.stopRequested) (hold : σ.phase.Registered)
    (hnew : σ'.phase.Registered) : σ'.CallbackSound := by
  simp only [CallbackSound] at h ⊢
  rw [hcallback, hstop]
  split at h
  · exact absurd hold h
  · exact ⟨hnew, h.2⟩
  · exact ⟨hnew, h.2⟩
  · exact ⟨.inl hnew, h.2⟩

/-- The `eventfd()` is created, or the call is refused. -/
theorem Inv.create (h : σ.Inv) (hphase : σ.phase = .creating) {phase : Phase} {isOpen : Bool}
    (hnew : phase = .registering ∧ isOpen = true ∨ phase = .refused) :
    { σ with phase, isOpen }.Inv := by
  have hcallback := h.callback
  have hhandling := h.handling
  have hongoing := h.recvOngoing
  rw [hphase] at hhandling hongoing
  -- the callback is not registered yet
  have hunregistered : σ.callback = .unregistered := by
    simp only [CallbackSound, hphase] at hcallback
    split at hcallback
    · assumption
    · exact absurd hcallback.1 id
    · exact absurd hcallback.1 id
    · simp [Phase.Registered] at hcallback
  rcases hnew with ⟨rfl, rfl⟩ | rfl
  · refine ⟨h.poller, by simpa using hhandling, ?_, nofun, nofun, fun _ => rfl, nofun, h.delivered,
      by simpa using hongoing⟩
    simp [CallbackSound, hunregistered, Phase.Registered]
  · refine ⟨h.poller, by simpa using hhandling, ?_, nofun, nofun, nofun, nofun, h.delivered,
      by simpa using hongoing⟩
    simp [CallbackSound, hunregistered, Phase.Registered]

theorem Inv.registerCallback (h : σ.Inv) (hphase : σ.phase = .registering) :
    σ.registerCallback.Inv := by
  have hopen := h.isOpen (by simp [hphase, Phase.BeforeClose])
  have hhandling := h.handling
  have hongoing := h.recvOngoing
  rw [hphase] at hhandling hongoing
  rw [State.registerCallback]
  split
  · rename_i hstop
    rw [eventfdWrite, if_pos hopen]
    exact
      { poller := h.poller
        handling := by simpa using hhandling
        callback := ⟨.inl trivial, hstop⟩
        noticed := nofun
        interrupted := nofun
        isOpen := fun _ => hopen
        looking := nofun
        delivered := h.delivered
        recvOngoing := by simpa using hongoing }
  · rename_i hstop
    exact
      { poller := h.poller
        handling := by simpa using hhandling
        callback := ⟨trivial, by simpa using hstop⟩
        noticed := nofun
        interrupted := nofun
        isOpen := fun _ => hopen
        looking := nofun
        delivered := h.delivered
        recvOngoing := by simpa using hongoing }

/-- A move inside of the loop. -/
theorem Inv.move (h : σ.Inv) {phase : Phase} (hold : σ.phase.Registered ∧ σ.phase.BeforeClose)
    (hnew : phase.Registered ∧ phase.BeforeClose)
    (hhandling : σ.phase ≠ .handling ∧ phase ≠ .handling)
    (hunaware : phase.Unaware → σ.stopRequested = false)
    (hinterrupted : phase = .interrupted → 0 < σ.counter) :
    { σ with phase }.Inv := by
  have hongoing := h.recvOngoing
  refine ⟨h.poller, ?_, h.callback.congr rfl rfl hold.1 hnew.1, ?_, hinterrupted,
    fun _ => h.isOpen hold.2, ?_, h.delivered, ?_⟩
  · exact iff_of_false (fun hrunning => hhandling.1 (h.handling.mp hrunning)) hhandling.2
  · intro hphase hstop
    rw [hunaware hphase] at hstop
    cases hstop
  · rintro rfl hstop
    rw [hunaware trivial] at hstop
    cases hstop
  · -- `recv_ongoing_` is set before the loop is left
    have hset : σ.recvOngoing ≠ false := by
      intro hreset
      rcases hongoing.mp hreset with heq | heq
      all_goals
        rw [heq] at hold
        exact hold.2
    refine iff_of_false hset ?_
    rintro (rfl | rfl)
    all_goals exact hnew.2

theorem Inv.look (h : σ.Inv) (hphase : σ.phase = .looking) {poller : Polling.State}
    (hpoll : σ.poller.step .poll = some poller) :
    { σ with poller, phase := if poller.handling then .handling else .polling }.Inv := by
  have hreachable : Polling.machine.Reachable poller := .step (a := .poll) h.poller trivial hpoll
  have hregistered : σ.phase.Registered := by simp [hphase, Phase.Registered]
  have hongoing := h.recvOngoing
  have hlooking := h.looking hphase
  simp only [Polling.State.step] at hpoll
  split_ifs at hpoll with hrunning hready
  · -- the block is delivered
    obtain rfl := Option.some.inj hpoll
    simp only [if_true]
    refine ⟨hreachable, by simp, h.callback.congr rfl rfl hregistered trivial,
      fun _ => h.noticed (by simp [hphase, Phase.Unaware]), by simp,
      fun _ => h.isOpen (by simp [hphase, Phase.BeforeClose]), by simp, ?_, ?_⟩
    · intro hstop
      simp only [Ring.deliver, List.length_append, List.length_singleton]
      exact Nat.le_of_eq (congrArg (· + 1) (hlooking hstop))
    · simpa [hphase] using hongoing
  · obtain rfl := Option.some.inj hpoll
    simp only [hrunning]
    refine ⟨hreachable, by simpa using hrunning, h.callback.congr rfl rfl hregistered trivial,
      fun _ => h.noticed (by simp [hphase, Phase.Unaware]), by simp,
      fun _ => h.isOpen (by simp [hphase, Phase.BeforeClose]), by simp, h.delivered, ?_⟩
    simpa [hphase] using hongoing

theorem Inv.drain (h : σ.Inv) (hphase : σ.phase = .interrupted) :
    { σ with counter := 0, phase := .checking }.Inv := by
  have hregistered : σ.phase.Registered := by simp [hphase, Phase.Registered]
  have hongoing := h.recvOngoing
  have hhandling := h.handling
  rw [hphase] at hongoing hhandling
  exact ⟨h.poller, by simpa using hhandling, h.callback.congr rfl rfl hregistered trivial, nofun,
    nofun, fun _ => h.isOpen (by simp [hphase, Phase.BeforeClose]), nofun, h.delivered,
    by simpa using hongoing⟩

/-- The handler returns, and the block goes back to the kernel. -/
theorem Inv.finish (h : σ.Inv) (hphase : σ.phase = .handling) {poller : Polling.State}
    (hfinish : σ.poller.step .finish = some poller) :
    { σ with poller, phase := .checking }.Inv := by
  have hreachable : Polling.machine.Reachable poller :=
    .step (a := .finish) h.poller trivial hfinish
  have hregistered : σ.phase.Registered := by simp [hphase, Phase.Registered]
  have hongoing := h.recvOngoing
  rw [hphase] at hongoing
  simp only [Polling.State.step] at hfinish
  split_ifs at hfinish
  obtain rfl := Option.some.inj hfinish
  exact ⟨hreachable, by simp, h.callback.congr rfl rfl hregistered trivial, nofun, nofun,
    fun _ => h.isOpen (by simp [hphase, Phase.BeforeClose]), nofun, h.delivered,
    by simpa using hongoing⟩

/-- The steps behind the loop. -/
theorem Inv.leave (h : σ.Inv) {phase : Phase} {isOpen recvOngoing : Bool}
    (hhandling : σ.phase ≠ .handling)
    (hold : σ.phase.Registered) (hnew : phase = .resetting ∨ phase = .unregistering)
    (hongoing : recvOngoing = false ↔ phase = .unregistering) :
    { σ with phase, isOpen, recvOngoing }.Inv := by
  have hrunning : σ.poller.handling ≠ true := fun hrun => hhandling (h.handling.mp hrun)
  rcases hnew with rfl | rfl
  · exact ⟨h.poller, by simpa using hrunning, h.callback.congr rfl rfl hold trivial, nofun, nofun,
      nofun, nofun, h.delivered, by simpa using hongoing⟩
  · exact ⟨h.poller, by simpa using hrunning, h.callback.congr rfl rfl hold trivial, nofun, nofun,
      nofun, nofun, h.delivered, by simpa using hongoing⟩

theorem Inv.unregister (h : σ.Inv) (hphase : σ.phase = .unregistering) {callback : Callback}
    (hcallback : callback = .unregistered ∨ callback = .returned ∧ σ.callback = .returned) :
    { σ with callback, phase := .ended }.Inv := by
  have hsound := h.callback
  have hhandling := h.handling
  have hongoing := h.recvOngoing
  rw [hphase] at hhandling hongoing
  refine ⟨h.poller, by simpa using hhandling, ?_, nofun, nofun, nofun, nofun, h.delivered,
    by simpa using hongoing⟩
  rcases hcallback with rfl | ⟨rfl, hreturned⟩
  · exact id
  · simp only [CallbackSound, hreturned] at hsound ⊢
    exact ⟨by simp, hsound.2⟩

/-- The loop keeps the invariant. -/
theorem Inv.goOn (h : σ.Inv) {readable : Bool} (hstep : σ.goOn readable = some σ') : σ'.Inv := by
  simp only [State.goOn] at hstep
  split at hstep
  · rename_i hphase
    obtain rfl := Option.some.inj hstep
    exact h.create hphase (.inl ⟨rfl, rfl⟩)
  · rename_i hphase
    obtain rfl := Option.some.inj hstep
    exact h.registerCallback hphase
  · rename_i hphase
    obtain rfl := Option.some.inj hstep
    have hold : σ.phase.Registered ∧ σ.phase.BeforeClose := by simp [hphase, Phase.Registered,
      Phase.BeforeClose]
    split
    · exact h.move hold ⟨trivial, trivial⟩ ⟨by simp [hphase], by simp⟩ nofun nofun
    · rename_i hstop
      exact h.move hold ⟨trivial, trivial⟩ ⟨by simp [hphase], by simp⟩
        (fun _ => by simpa using hstop) nofun
  · rename_i hphase
    obtain ⟨poller, hpoll, rfl⟩ := Option.map_eq_some_iff.mp hstep
    exact h.look hphase hpoll
  · rename_i hphase
    have hold : σ.phase.Registered ∧ σ.phase.BeforeClose := by simp [hphase, Phase.Registered,
      Phase.BeforeClose]
    split_ifs at hstep with hcounter
    · obtain rfl := Option.some.inj hstep
      exact h.move hold ⟨trivial, trivial⟩ ⟨by simp [hphase], by simp⟩ nofun fun _ => hcounter
    · obtain rfl := Option.some.inj hstep
      exact h.move hold ⟨trivial, trivial⟩ ⟨by simp [hphase], by simp⟩ nofun nofun
  · rename_i hphase
    split_ifs at hstep
    obtain rfl := Option.some.inj hstep
    exact h.drain hphase
  · rename_i hphase
    obtain ⟨poller, hfinish, rfl⟩ := Option.map_eq_some_iff.mp hstep
    exact h.finish hphase hfinish
  · rename_i hphase
    obtain rfl := Option.some.inj hstep
    have hongoing := h.recvOngoing
    rw [hphase] at hongoing
    refine h.leave (by simp [hphase]) (by simp [hphase, Phase.Registered]) (.inl rfl) ?_
    simpa using hongoing
  · rename_i hphase
    obtain rfl := Option.some.inj hstep
    exact h.leave (by simp [hphase]) (by simp [hphase, Phase.Registered]) (.inr rfl) (by simp)
  · rename_i hphase
    split at hstep
    · cases hstep
    · obtain rfl := Option.some.inj hstep
      exact h.unregister hphase (.inl rfl)
    · obtain rfl := Option.some.inj hstep
      exact h.unregister hphase (.inl rfl)
    · rename_i hcallback
      obtain rfl := Option.some.inj hstep
      exact hcallback ▸ h.unregister hphase (.inr ⟨rfl, hcallback⟩)
  all_goals cases hstep

theorem Inv.mark (h : σ.Inv) {i : ℕ} {poller : Polling.State}
    (hmark : σ.poller.step (.mark i) = some poller) : { σ with poller }.Inv := by
  have hreachable : Polling.machine.Reachable poller :=
    .step (a := .mark i) h.poller trivial hmark
  simp only [Polling.State.step] at hmark
  split_ifs at hmark
  obtain rfl := Option.some.inj hmark
  exact ⟨hreachable, h.handling, h.callback, h.noticed, h.interrupted, h.isOpen, h.looking,
    h.delivered, h.recvOngoing⟩

/-- A request finds the callback registered, or the loop will find the flag set. -/
theorem Inv.requestStop (h : σ.Inv) (hstop : σ.stopRequested = false) :
    { σ with
      stopRequested := true
      callback := if σ.callback = Callback.registered then .called else σ.callback
      before := σ.poller.ring.delivered.length }.Inv := by
  have hcallback := h.callback
  have hknown : σ.callback = .unregistered ∧ ¬ σ.phase.Registered ∨
      σ.callback = .registered ∧ σ.phase.Registered := by
    simp only [CallbackSound, hstop] at hcallback
    split at hcallback
    · rename_i heq
      exact .inl ⟨heq, hcallback⟩
    · rename_i heq
      exact .inr ⟨heq, hcallback.1⟩
    · exact absurd hcallback.2 (by simp)
    · exact absurd hcallback.2 (by simp)
  refine ⟨h.poller, h.handling, ?_, ?_, h.interrupted, h.isOpen, fun _ _ => rfl,
    fun _ => Nat.le_succ _, h.recvOngoing⟩
  · rcases hknown with ⟨heq, hphase⟩ | ⟨heq, hphase⟩
    · simpa [CallbackSound, heq] using hphase
    · simpa [CallbackSound, heq] using hphase
  · intro hunaware _
    rcases hknown with ⟨heq, hphase⟩ | ⟨heq, hphase⟩
    · refine absurd ?_ hphase
      revert hunaware
      cases σ.phase <;> simp [Phase.Unaware, Phase.Registered]
    · exact .inl (if_pos heq)

/-- The callback wakes the loop, unless that has closed the `eventfd()`. -/
theorem Inv.write (h : σ.Inv) (hcalled : σ.callback = .called) : σ.eventfdWrite.Inv := by
  have hcallback := h.callback
  simp only [CallbackSound, hcalled] at hcallback
  have hsound : (σ.phase.Registered ∨ σ.phase = .ended) ∧ σ.stopRequested = true :=
    ⟨.inl hcallback.1, hcallback.2⟩
  rw [eventfdWrite]
  split
  · exact ⟨h.poller, h.handling, hsound, fun _ _ => .inr (Nat.succ_pos _),
      fun _ => Nat.succ_pos _, h.isOpen, h.looking, h.delivered, h.recvOngoing⟩
  · rename_i hclosed
    refine ⟨h.poller, h.handling, hsound, ?_, h.interrupted, h.isOpen, h.looking, h.delivered,
      h.recvOngoing⟩
    intro hunaware
    refine absurd (h.isOpen ?_) hclosed
    revert hunaware
    cases σ.phase <;> simp [Phase.Unaware, Phase.BeforeClose]

/-- Every step keeps the invariant. -/
theorem Inv.step (h : σ.Inv) (hstep : σ.step a = some σ') : σ'.Inv := by
  cases a with
  | mark i =>
    obtain ⟨poller, hmark, rfl⟩ := Option.map_eq_some_iff.mp hstep
    exact h.mark hmark
  | requestStop =>
    obtain ⟨hstop, hstep⟩ := Option.ite_none_left_eq_some.mp hstep
    obtain rfl := Option.some.inj hstep
    exact h.requestStop (by simpa using hstop)
  | write =>
    obtain ⟨hcalled, hstep⟩ := Option.ite_none_right_eq_some.mp hstep
    obtain rfl := Option.some.inj hstep
    exact h.write hcalled
  | goOn readable => exact h.goOn hstep
  | fail =>
    simp only [State.step] at hstep
    split at hstep
    · rename_i hphase
      obtain rfl := Option.some.inj hstep
      exact h.create hphase (.inr rfl)
    · rename_i hphase
      obtain rfl := Option.some.inj hstep
      exact h.move (by simp [hphase, Phase.Registered, Phase.BeforeClose]) ⟨trivial, trivial⟩
        ⟨by simp [hphase], by simp⟩ nofun nofun
    · rename_i hphase
      obtain rfl := Option.some.inj hstep
      exact h.move (by simp [hphase, Phase.Registered, Phase.BeforeClose]) ⟨trivial, trivial⟩
        ⟨by simp [hphase], by simp⟩ nofun nofun
    all_goals cases hstep

theorem inv_of_reachable (hσ : machine.Reachable σ) : σ.Inv := by
  refine hσ.invariant ?_ ?_
  · rintro _ ⟨poller, stopRequested, hpoller, hhandling, rfl⟩
    exact ⟨hpoller, by simp [hhandling], id, nofun, nofun, nofun, nofun,
      fun _ => Nat.le_succ _, by simp⟩
  · intro σ a σ' h _ hstep
    exact h.step hstep

/-! ## The loop ends -/

/-- The number of steps that are left when the stop is requested. -/
def remaining (σ : State) : ℕ :=
  (match σ.phase with
    | .looking => 7
    | .creating | .polling => 6
    | .registering | .interrupted | .handling => 5
    | .checking => 4
    | .closing => 3
    | .resetting => 2
    | .unregistering => 1
    | .ended | .refused => 0) + if σ.callback = .called then 1 else 0

/-- The stop is requested of a call that was not refused. -/
def Stopping (σ : State) : Prop := σ.stopRequested = true ∧ σ.phase ≠ .refused

/-- After a request, the loop or the callback can go on until the loop has ended. -/
theorem Inv.exists_step (h : σ.Inv) (hσ : σ.Stopping) (hended : σ.phase ≠ .ended) :
    ∃ a σ', σ.step a = some σ' ∧ a.Internal ∧ σ'.Stopping ∧ σ'.remaining < σ.remaining := by
  obtain ⟨hstop, hrefused⟩ := hσ
  have hgoOn : ∀ σ', σ.goOn false = some σ' → σ'.Stopping → σ'.remaining < σ.remaining →
      ∃ a σ', σ.step a = some σ' ∧ a.Internal ∧ σ'.Stopping ∧ σ'.remaining < σ.remaining :=
    fun σ' hstep hstop' hless => ⟨.goOn false, σ', hstep, trivial, hstop', hless⟩
  have hcallback := h.callback
  by_cases hcalled : σ.callback = .called
  · -- let the callback write
    refine ⟨.write, _, if_pos hcalled, trivial, ?_, ?_⟩
    · rw [eventfdWrite]
      split <;> exact ⟨hstop, hrefused⟩
    · rw [eventfdWrite]
      split <;> simp [remaining, hcalled]
  match hphase : σ.phase with
  | .creating =>
    refine hgoOn { σ with isOpen := true, phase := .registering } ?_ ⟨hstop, by simp⟩ ?_
    · simp only [State.goOn, hphase]
    · simp [remaining, hphase, hcalled]
  | .registering =>
    -- the request came first, so the constructor calls the callback
    have hregister : σ.registerCallback = { σ.eventfdWrite with phase := .checking } :=
      if_pos hstop
    refine hgoOn σ.registerCallback (by simp only [State.goOn, hphase]) ?_ ?_
    · rw [hregister, eventfdWrite]
      split <;> exact ⟨hstop, by simp⟩
    · rw [hregister, eventfdWrite]
      split <;> simp [remaining, hphase, hcalled]
  | .checking =>
    refine hgoOn { σ with phase := .closing } ?_ ⟨hstop, by simp⟩ ?_
    · simp only [State.goOn, hphase, hstop, if_true]
    · simp [remaining, hphase]
  | .looking =>
    have hrunning : σ.poller.handling ≠ true := fun hrun => by simp [h.handling.mp hrun] at hphase
    by_cases hready : σ.poller.ring.ready σ.poller.currentBlockIndex = true
    · refine hgoOn { σ with
        poller := { σ.poller with
          ring := σ.poller.ring.deliver σ.poller.currentBlockIndex, handling := true }
        phase := .handling } ?_ ⟨hstop, by simp⟩ ?_
      · simp [State.goOn, hphase, Polling.State.step, hrunning, hready]
      · simp [remaining, hphase, hcalled]
    · refine hgoOn { σ with phase := .polling } ?_ ⟨hstop, by simp⟩ ?_
      · simp [State.goOn, hphase, Polling.State.step, hrunning, hready]
      · simp [remaining, hphase, hcalled]
  | .polling =>
    -- the callback has written, so `poll()` returns
    have hcounter : 0 < σ.counter :=
      (h.noticed (by simp [hphase, Phase.Unaware]) hstop).resolve_left hcalled
    refine hgoOn { σ with phase := .interrupted } ?_ ⟨hstop, by simp⟩ ?_
    · simp only [State.goOn, hphase, hcounter, if_true]
    · simp [remaining, hphase]
  | .interrupted =>
    refine hgoOn { σ with counter := 0, phase := .checking } ?_ ⟨hstop, by simp⟩ ?_
    · simp only [State.goOn, hphase, h.interrupted hphase, if_true]
    · simp [remaining, hphase]
  | .handling =>
    have hrunning : σ.poller.handling = true := h.handling.mpr hphase
    refine hgoOn { σ with
      poller := { σ.poller with
        ring := σ.poller.ring.consume σ.poller.currentBlockIndex
        currentBlockIndex := incrementBlockIndex σ.poller.currentBlockIndex
        handling := false }
      phase := .checking } ?_ ⟨hstop, by simp⟩ ?_
    · simp [State.goOn, hphase, Polling.State.step, hrunning]
    · simp [remaining, hphase, hcalled]
  | .closing =>
    refine hgoOn { σ with isOpen := false, phase := .resetting } ?_ ⟨hstop, by simp⟩ ?_
    · simp only [State.goOn, hphase]
    · simp [remaining, hphase]
  | .resetting =>
    refine hgoOn { σ with recvOngoing := false, phase := .unregistering } ?_ ⟨hstop, by simp⟩ ?_
    · simp only [State.goOn, hphase]
    · simp [remaining, hphase]
  | .unregistering =>
    -- the destructor waits for the callback only
    simp only [CallbackSound, hstop] at hcallback
    match heq : σ.callback with
    | .called => exact absurd heq hcalled
    | .unregistered => simp [heq, hphase, Phase.Registered] at hcallback
    | .registered => simp [heq] at hcallback
    | .returned =>
      refine hgoOn { σ with phase := .ended } ?_ ⟨hstop, by simp⟩ ?_
      · simp only [State.goOn, hphase, heq]
      · simp [remaining, hphase, heq]
  | .ended => exact absurd hphase hended
  | .refused => exact absurd hphase hrefused

/-- In every run of `PollReceiveBlockSync()`, wherever the stop request comes in and whatever blocks
the kernel fills, `eventfd_read()` finds something to read, at most one block is delivered after the
request, and a loop that has ended has returned every block that it has delivered and allows the
next receive. A call that gets no `eventfd()` allows none. After a request, any other call ends as
soon as the completion handler returns and the callback has written. -/
theorem stop_ends_poll (hσ : machine.Reachable σ) :
    (σ.phase = .interrupted → 0 < σ.counter) ∧
      (σ.stopRequested = true → σ.poller.ring.delivered.length ≤ σ.before + 1) ∧
      (σ.phase = .ended →
        σ.recvOngoing = false ∧ σ.poller.ring.consumed = σ.poller.ring.delivered) ∧
      (σ.phase = .refused → σ.recvOngoing = true) ∧
      (σ.Stopping → ∃ as σ', (∀ a ∈ as, a.Internal) ∧
        machine.run Machine.Always σ as = some σ' ∧ σ'.phase = .ended) := by
  have h := inv_of_reachable hσ
  refine ⟨h.interrupted, h.delivered, ?_, ?_, ?_⟩
  · intro hended
    refine ⟨h.recvOngoing.mpr (.inr hended), ?_⟩
    have hrunning : ¬ σ.poller.handling = true := by simp [h.handling, hended]
    have hkept := (Polling.inv_of_reachable h.poller).kept
    rw [if_neg hrunning] at hkept
    exact hkept.consumed_eq
  · intro hrefused
    simpa [hrefused] using h.recvOngoing
  · intro hstopping
    have hprogress : ∀ σ : State, (σ.Inv ∧ σ.Stopping) → ¬ σ.phase = .ended →
        ∃ a σ', machine.step σ a = some σ' ∧ Machine.Always σ a ∧ a.Internal ∧
          (σ'.Inv ∧ σ'.Stopping) ∧ σ'.remaining < σ.remaining := by
      rintro σ ⟨h, hstopping⟩ hended
      obtain ⟨a, σ', hstep, ha, hstopping', hless⟩ := h.exists_step hstopping hended
      exact ⟨a, σ', hstep, trivial, ha, ⟨h.step hstep, hstopping'⟩, hless⟩
    obtain ⟨as, σ', has, hrun, -, hended⟩ :=
      Machine.exists_run_of_work remaining hprogress ⟨h, hstopping⟩
    exact ⟨as, σ', has, hrun, hended⟩

/-- A block is delivered, and the request comes while the loop waits for the next one. -/
theorem stop_ends_poll_waiting :
    ∃ σ, machine.Reachable σ ∧ σ.phase = .polling ∧ σ.stopRequested = true ∧
      ∃ as σ', (∀ a ∈ as, a.Internal) ∧ machine.run Machine.Always σ as = some σ' ∧
        σ'.phase = .ended := by
  have hσ := Machine.reachableIn_get_run (M := machine) (C := Machine.Always)
    (l := [.mark 0, .goOn false, .goOn false, .goOn false, .goOn false, .goOn false, .goOn false,
      .goOn false, .requestStop]) (s := { poller := {} }) ⟨{}, false, .init rfl, rfl, rfl⟩
    (by decide)
  exact ⟨_, hσ, by decide, by decide, (stop_ends_poll hσ).2.2.2.2 ⟨by decide, by decide⟩⟩

/-- The loop sees the flag before the callback writes: the write goes to a closed descriptor. -/
example : ∃ σ, machine.run Machine.Always { poller := {} }
    [.goOn false, .goOn false, .requestStop, .goOn false, .goOn false, .write] = some σ ∧
      σ.strayWrites = 1 :=
  ⟨_, rfl, rfl⟩

end State

end PollStop

end Asrt.Socket.PacketRing
