import Asrt.Socket.StreamOperations
import Asrt.ToMathlib.VectorOps

/-!
# Rejected connects

A `ConnectAsync()` on a socket that is connecting or connected is answered with an error. The
operation that is pending is left alone, but the answer is a job, and the job of a connect that
failed sets the state of the socket. The events of the reactor are ignored from then on.

A stream socket is run here beside a socket on which the rejected calls are not made. Every callback
is paired with whether its call was rejected.

## Main definitions

* `machine`: the two sockets.
* `Faithful`: that they cannot be told apart by the other calls.
* `Unharmed`: what a step leaves to the pending operations.

## Main results

* `rejected_connect_harmless_iff`: when rejected calls change nothing.
-/

namespace Asrt.Socket.Async.RejectedConnect

/-- A stream socket, and the same without the rejected calls. -/
structure State (H : Type) where
  socket : StreamSocket (H × Bool) := {}
  /-- Ghost: the socket on which the rejected calls are not made. -/
  bare : StreamSocket (H × Bool) := {}

/-- `connect()` fails. -/
def isRefusal (call : SystemResult) : Bool :=
  match call.result with
  | .ok _ => false
  | .error errno => !isConnectInProgress errno

/-- The step is a `ConnectAsync()` that is answered with an error, while a connect is pending or the
socket is connected. -/
def rejects {H K : Type} (s : StreamSocket K) : Action H → Bool
  | .start a => a.function = .connectAsync ∧ ((s.operation .kConnect).operationOngoing ∨
      s.streamSockState = .kConnected ∧ isRefusal a.call)
  | _ => false

/-- The callback is not that of a rejected call. -/
def accepted {H : Type} (callback : Option (H × Bool)) : Bool := callback.all fun c => !c.2

namespace State

variable {H : Type}

/-- The step is the job of a rejected call. -/
def isAnswer (σ : State H) : Action H → Bool
  | .runJob i => (σ.socket.jobs[i]?).any fun job => !accepted job.callback
  | _ => false

/-- The same step of the socket without the rejected calls, where there are fewer jobs. -/
def bareAction (σ : State H) : Action H → Action (H × Bool)
  | .runJob i => .runJob ((σ.socket.jobs.take i).countP fun job => accepted job.callback)
  | a => a.map fun callback => (callback, false)

/-- The step labelled by an action, if it is enabled. -/
def step (σ : State H) (a : Action H) : Option (State H) :=
  (σ.socket.step (a.map fun callback => (callback, rejects σ.socket a))).map fun socket => {
    socket
    -- the other socket gets neither the rejected call nor its answer
    bare :=
      if rejects σ.socket a ∨ σ.isAnswer a then σ.bare
      else (σ.bare.step (σ.bareAction a)).getD σ.bare }

end State

/-- The two sockets as a machine. -/
def machine (H : Type) : ToMathlib.Machine (State H) (Action H) where
  init σ := σ = {}
  step := State.step

section

variable {H : Type} {s t : StreamSocket (H × Bool)} {a : Action H} {σ τ : State H}

/-- The socket behaves as the one without the rejected calls. The result of an operation may differ:
it is assigned before it is read. -/
structure Faithful (s t : StreamSocket (H × Bool)) : Prop where
  base : t.base = s.base
  streamSockState : t.streamSockState = s.streamSockState
  operation : ∀ opType, ∃ result,
    t.operation opType = { s.operation opType with completionResult := result }
  phase : t.phase = s.phase
  continued : t.continued = s.continued
  jobs : t.jobs = s.jobs.filter fun job => accepted job.callback
  called : t.called = s.called.filter fun call => accepted call.1

/-- The kernel says that the connect is still in progress. -/
def isAwaited (call : SystemResult) : Bool :=
  match call.result with
  | .ok sockError => isConnectInProgress sockError
  | .error _ => false

/-- From `σ` to `τ` an event serves what is pending on the open socket without the rejected calls.
-/
structure Serves (σ : State H) (events : Reactor.Events) (call : SystemResult) (τ : State H) :
    Prop where
  /-- The connect stays pending while it is in progress. -/
  awaited : σ.bare.streamSockState = .kConnecting → isAwaited call = true →
    τ.socket.streamSockState = .kConnecting ∧ τ.socket.called = σ.socket.called ∧
      (τ.socket.operation .kConnect).completetionHandler =
        (σ.bare.operation .kConnect).completetionHandler
  /-- Its callback is called when it has ended, with its outcome. -/
  outcome : σ.bare.streamSockState = .kConnecting → isAwaited call = false → ∃ result,
    τ.socket.called = σ.socket.called ++
      [((σ.bare.operation .kConnect).completetionHandler.value, result)] ∧
    τ.socket.streamSockState = StreamSocket.connectState result ∧
    (τ.socket.operation .kConnect).operationOngoing = false ∧
    (result = .ok 0 ↔ call.result = .ok 0)
  /-- The receive is continued. -/
  received : σ.bare.streamSockState = .kConnected → events.hasReadEvent = true →
    (σ.bare.operation .kReceive).operationOngoing = true →
    ∃ rest, τ.socket.continued = σ.socket.continued ++
      (σ.bare.operation .kReceive).completetionHandler.value :: rest
  /-- The send is continued, if there is no receive to be continued first. -/
  sent : σ.bare.streamSockState = .kConnected → events.hasWriteEvent = true →
    (σ.bare.operation .kSend).operationOngoing = true →
    ¬ (events.hasReadEvent = true ∧ (σ.bare.operation .kReceive).operationOngoing = true) →
    ∃ rest, τ.socket.continued = σ.socket.continued ++
      (σ.bare.operation .kSend).completetionHandler.value :: rest

/-- The step from `σ` to `τ` is one of a socket on which the rejected calls have changed nothing. -/
structure Unharmed (σ : State H) (a : Action H) (τ : State H) : Prop where
  faithful : Faithful τ.socket τ.bare
  serves : ∀ events first second, a = .event events first second →
    σ.bare.base.isClosed = false → Serves σ events first τ

/-- The job of a rejected call runs only when the socket is in the state that it sets. -/
def Harmless (σ : State H) : Action H → Prop
  | .runJob i => ∀ job, σ.socket.jobs[i]? = some job → accepted job.callback = false →
    σ.socket.streamSockState = .kConnectError
  | _ => True

/-! ## Faithful steps -/

theorem Faithful.ongoing (h : Faithful s t) (opType : OperationType) :
    (t.operation opType).operationOngoing = (s.operation opType).operationOngoing := by
  obtain ⟨result, heq⟩ := h.operation opType
  rw [heq]

theorem Faithful.completetionHandler (h : Faithful s t) (opType : OperationType) :
    (t.operation opType).completetionHandler = (s.operation opType).completetionHandler := by
  obtain ⟨result, heq⟩ := h.operation opType
  rw [heq]

/-- The socket is faithful, and the handlers it holds are those of accepted calls. -/
structure Simulates (s t : StreamSocket (H × Bool)) : Prop extends Faithful s t where
  handlers : ∀ opType, accepted (s.operation opType).completetionHandler.value = true

/-- An operation may be changed in both, if the change does not depend on the result. -/
theorem Simulates.setOperation (h : Simulates s t) (opType : OperationType)
    (f : AsyncOperation (H × Bool) → AsyncOperation (H × Bool))
    (hf : ∀ op result, ∃ result',
      f { op with completionResult := result } = { f op with completionResult := result' })
    (hhandler : accepted (f (s.operation opType)).completetionHandler.value = true) :
    Simulates (s.setOperation opType (f (s.operation opType)))
      (t.setOperation opType (f (t.operation opType))) where
  base := h.base
  streamSockState := h.streamSockState
  operation := by
    intro other
    by_cases heq : other = opType
    · -- the operations differ in the result only, and so do they after the change
      subst heq
      obtain ⟨result, hop⟩ := h.operation other
      obtain ⟨result', hf⟩ := hf (s.operation other) result
      refine ⟨result', ?_⟩
      simp only [StreamSocket.setOperation, Function.update_self]
      rw [hop, hf]
    · simpa only [StreamSocket.setOperation, Function.update_of_ne heq] using h.operation other
  phase := h.phase
  continued := h.continued
  jobs := h.jobs
  called := h.called
  handlers := by
    intro other
    by_cases heq : other = opType
    · subst heq
      simpa only [StreamSocket.setOperation, Function.update_self] using hhandler
    · simpa only [StreamSocket.setOperation, Function.update_of_ne heq] using h.handlers other

theorem Simulates.start (h : Simulates s t) {a : Start (H × Bool)} (ha : a.callback.2 = false) :
    Simulates (s.start a) (t.start a) := by
  have haccepted : accepted (some a.callback) = true := by simp [accepted, ha]
  -- a start reads nothing of the socket but whether the operation is ongoing
  rcases StreamSocket.start_congr (h.ongoing a.opType) with ⟨n, heq, heq'⟩ | ⟨result, heq, heq'⟩
  · rw [heq, heq']
    have hset := h.setOperation a.opType
      (fun op => op.onInitiation a.callback a.view a.isExhaustive n)
      (fun _ result => ⟨result, rfl⟩) haccepted
    exact { hset with
      streamSockState := by simp [StreamSocket.started, h.streamSockState] }
  · -- both answer with a job, which is not filtered out
    rw [heq, heq']
    have hset := h.setOperation a.opType (fun op => op.setResult result)
      (fun _ _ => ⟨_, rfl⟩) (h.handlers a.opType)
    exact { hset with
      jobs := by simp [StreamSocket.answered, h.jobs, haccepted] }

theorem Simulates.handle (h : Simulates s t) (opType : OperationType) (events : Reactor.Events)
    (call : SystemResult) :
    Simulates (s.handle opType events call) (t.handle opType events call) := by
  obtain ⟨result', hop⟩ := h.operation opType
  have hhandler := h.completetionHandler opType
  rcases StreamSocket.handle_congr opType hop events call with
    ⟨n, heq, heq'⟩ | ⟨result, heq, heq'⟩
  · rw [heq, heq']
    have hset := h.setOperation opType (fun op => op.onContinuation n)
      (fun _ result => ⟨result, rfl⟩) (h.handlers opType)
    exact { hset with
      phase := rfl
      continued := by simp [StreamSocket.continuedBy, h.continued, hhandler] }
  · -- both call the handler, which is that of an accepted call
    rw [heq, heq']
    have hset := h.setOperation opType
      (fun op => { op.setResult result with operationOngoing := false })
      (fun _ _ => ⟨_, rfl⟩) (h.handlers opType)
    exact { hset with
      streamSockState := by simp [StreamSocket.completedBy, h.streamSockState]
      phase := rfl
      continued := by simp [StreamSocket.completedBy, h.continued, hhandler]
      called := by
        simp [StreamSocket.completedBy, h.called, hhandler, h.handlers opType] }

/-- The second part of an event reads what the sockets have in common. -/
theorem Simulates.handleWriteEvent (h : Simulates s t) (events : Reactor.Events)
    (call : SystemResult) :
    Simulates (s.handleWriteEvent events call) (t.handleWriteEvent events call) := by
  simp only [StreamSocket.handleWriteEvent, h.ongoing, h.streamSockState]
  split
  · exact h.handle .kSend events call
  · exact { h with streamSockState := rfl, phase := rfl }

theorem Simulates.onReactorEvent (h : Simulates s t) (events : Reactor.Events)
    (first second : SystemResult) :
    Simulates (s.onReactorEvent events first second) (t.onReactorEvent events first second) := by
  simp only [StreamSocket.onReactorEvent, h.base, h.streamSockState]
  split
  · exact h
  cases s.streamSockState with
  | kConnecting => exact h.handle .kConnect events first
  | kConnected =>
    -- whether the send is looked at depends on the phase after the receive
    have hreceive := h.handle .kReceive events first
    simp only [StreamSocket.handleDataTranster, h.ongoing, hreceive.phase]
    split
    · split
      · exact hreceive.handleWriteEvent events second
      · exact hreceive
    · exact h.handleWriteEvent events second
  | kDisconnected => exact h
  | kDormant => exact h
  | kConnectError => exact h

theorem Simulates.resume (h : Simulates s t) (call : SystemResult) :
    Simulates (s.resume call) (t.resume call) := by
  simp only [StreamSocket.resume, h.phase]
  split
  · exact h.handleWriteEvent _ call
  · exact { h with phase := rfl }

theorem Simulates.openSocket (h : Simulates s t) (fd : NativeHandle)
    (registered : Option Reactor.HandlerTag) :
    Simulates (s.openSocket fd registered) (t.openSocket fd registered) := by
  simp only [StreamSocket.openSocket, h.base]
  split
  · exact h
  split
  · split
    · exact { h with base := rfl }
    · exact { h with base := rfl }
  · exact { h with base := rfl }

theorem Simulates.close (h : Simulates s t) (deregistered inUse : Bool) :
    Simulates (s.close deregistered inUse) (t.close deregistered inUse) := by
  simp only [StreamSocket.close, h.base]
  split
  · exact h
  split
  · exact { h with base := rfl, streamSockState := rfl }
  · exact { h with base := rfl, streamSockState := rfl }

theorem Simulates.connect (h : Simulates s t) (ok : Bool) :
    Simulates (s.connect ok) (t.connect ok) := by
  simp only [StreamSocket.connect, h.base, h.streamSockState]
  split
  · exact { h with base := rfl, streamSockState := rfl }
  · exact h

theorem Simulates.sendSync (h : Simulates s t) (notConnected : Bool) :
    Simulates (s.sendSync notConnected) (t.sendSync notConnected) := by
  simp only [StreamSocket.sendSync, h.ongoing, h.streamSockState]
  split
  · exact { h with streamSockState := rfl }
  · exact h

/-! ## The rejected calls -/

/-- A rejected call is answered by a job, with an error. -/
theorem start_of_rejects {start : Start H} (h : rejects s (.start start : Action H) = true)
    (b : Bool) : start.opType = .kConnect ∧ ∃ error,
      s.start (start.map fun callback => (callback, b)) =
        s.answered (start.map fun callback => (callback, b)) (.error error) := by
  obtain ⟨function, view, callback, readable, call⟩ := start
  simp only [rejects, decide_eq_true_eq] at h
  obtain ⟨rfl, hanswer⟩ := h
  refine ⟨rfl, ?_⟩
  by_cases hongoing : (s.operation .kConnect).operationOngoing = true
  · -- `DoPerform()` finds the pending connect
    exact ⟨.asyncOperationInProgress, StreamSocket.doStart_of_ongoing hongoing ..⟩
  · -- the system call is made, and fails
    rcases hanswer with hpending | ⟨-, hrefusal⟩
    · exact absurd hpending hongoing
    · simp only [isRefusal] at hrefusal
      split at hrefusal
      · cases hrefusal
      · rename_i errno hresult
        have hbusy : isConnectInProgress errno = false := by simpa using hrefusal
        refine ⟨.system errno, ?_⟩
        simp [StreamSocket.start, StreamSocket.doStart, Start.map, Start.opType,
          Start.allowSpeculative, AsyncOperation.performInitiation, AsyncOperation.doPerform,
          AsyncOperation.doConnect, AsyncOperation.setResult, Stored.assign, hongoing, hresult,
          hbusy, StreamSocket.answered]

/-- A rejected call is not seen on the other socket. -/
theorem Simulates.answered (h : Simulates s t) {start : Start (H × Bool)}
    (hrejected : start.callback.2 = true) (result : CompletionResult) :
    Simulates (s.answered start result) t where
  base := h.base
  streamSockState := h.streamSockState
  operation := by
    intro other
    rw [StreamSocket.answered_operation]
    by_cases heq : other = start.opType
    · -- the refusal is assigned to the result, which is not compared
      subst heq
      rw [Function.update_self]
      exact h.operation start.opType
    · rw [Function.update_of_ne heq]
      exact h.operation other
  phase := h.phase
  continued := h.continued
  jobs := by simp [StreamSocket.answered, h.jobs, accepted, hrejected]
  called := h.called
  handlers := by
    intro other
    rw [StreamSocket.answered_operation]
    by_cases heq : other = start.opType
    · subst heq
      rw [Function.update_self]
      exact h.handlers start.opType
    · rw [Function.update_of_ne heq]
      exact h.handlers other

/-- The job of an accepted call is a job of the other socket. -/
theorem Simulates.runJob (h : Simulates s t) {i : ℕ} {job : Job (H × Bool)}
    (hjob : s.jobs[i]? = some job) (haccepted : accepted job.callback = true) :
    t.jobs[(s.jobs.take i).countP fun job => accepted job.callback]? = some job ∧
      Simulates (s.runJob i job)
        (t.runJob ((s.jobs.take i).countP fun job => accepted job.callback) job) := by
  refine ⟨?_, ?_⟩
  · rw [h.jobs]
    exact ToMathlib.getElem?_filter_countP_take _ hjob haccepted
  · exact { h with
      streamSockState := by simp [StreamSocket.runJob, h.streamSockState]
      jobs := by
        simp only [StreamSocket.runJob, h.jobs]
        exact (ToMathlib.filter_eraseIdx_of_pos _ hjob haccepted).symm
      called := by simp [StreamSocket.runJob, h.called, haccepted] }

/-- The jobs of rejected calls are those of connects, with an error. -/
def Answers (s : StreamSocket (H × Bool)) : Prop :=
  ∀ job ∈ s.jobs, accepted job.callback = false →
    job.opType = .kConnect ∧ ∃ error, job.result = .error error

/-- The job of a rejected call is not seen on the other socket if and only if the socket is in the
state that it sets. -/
theorem Simulates.runJob_iff (h : Simulates s t) (hanswers : Answers s) {i : ℕ}
    {job : Job (H × Bool)} (hjob : s.jobs[i]? = some job)
    (hrejected : accepted job.callback = false) :
    (s.streamSockState = .kConnectError → Simulates (s.runJob i job) t) ∧
      (Faithful (s.runJob i job) t → s.streamSockState = .kConnectError) := by
  obtain ⟨hconnect, error, hresult⟩ := hanswers job (List.mem_of_getElem? hjob) hrejected
  have hstate : (s.runJob i job).streamSockState = .kConnectError := by
    simp [StreamSocket.runJob, hconnect, hresult, StreamSocket.connectState]
  constructor
  · intro hsame
    exact { h with
      streamSockState := by rw [hstate, h.streamSockState, hsame]
      jobs := by
        rw [h.jobs]
        exact (ToMathlib.filter_eraseIdx_of_neg _ hjob hrejected).symm
      called := by simp [StreamSocket.runJob, h.called, hrejected] }
  · -- the other socket has kept the state of before
    intro hfaithful
    rw [← h.streamSockState, hfaithful.streamSockState, hstate]

/-! ## Serving what is pending -/

/-- A connect that is in progress is continued. -/
theorem handle_connect_of_awaited {call : SystemResult} (h : isAwaited call = true)
    (s : StreamSocket (H × Bool)) (events : Reactor.Events) :
    s.handle .kConnect events call = s.continuedBy .kConnect 0 := by
  simp only [isAwaited] at h
  split at h
  · rename_i sockError hresult
    simp [StreamSocket.handle, AsyncOperation.performContinuation, AsyncOperation.doPerform,
      AsyncOperation.doConnect, hresult, h, StreamSocket.continuedBy]
  · cases h

/-- A connect whose `SO_ERROR` was read is complete. An error is reported with `errno`. -/
theorem handle_connect_of_ok {call : SystemResult} {sockError : ℕ}
    (hresult : call.result = .ok sockError) (h : isConnectInProgress sockError = false)
    (s : StreamSocket (H × Bool)) (events : Reactor.Events) :
    s.handle .kConnect events call = s.completedBy .kConnect events
      (if sockError ≠ 0 then .error (.system call.errno) else .ok 0) := by
  simp [StreamSocket.handle, AsyncOperation.performContinuation, AsyncOperation.doPerform,
    AsyncOperation.doConnect, hresult, h, StreamSocket.completedBy, AsyncOperation.setResult,
    Stored.assign]

/-- A connect is complete when `getsockopt()` itself fails. -/
theorem handle_connect_of_error {call : SystemResult} {errno : ℕ}
    (hresult : call.result = .error errno) (s : StreamSocket (H × Bool))
    (events : Reactor.Events) :
    s.handle .kConnect events call =
      s.completedBy .kConnect events (.error (.system errno)) := by
  simp [StreamSocket.handle, AsyncOperation.performContinuation, AsyncOperation.doPerform,
    AsyncOperation.doConnect, hresult, StreamSocket.completedBy, AsyncOperation.setResult,
    Stored.assign]

/-- A connect that has ended is complete, with success if there is no error. -/
theorem handle_connect_of_ended {call : SystemResult} (h : isAwaited call = false)
    (s : StreamSocket (H × Bool)) (events : Reactor.Events) :
    ∃ result, s.handle .kConnect events call = s.completedBy .kConnect events result ∧
      (result = .ok 0 ↔ call.result = .ok 0) := by
  simp only [isAwaited] at h
  split at h
  · rename_i sockError hresult
    refine ⟨_, handle_connect_of_ok hresult h s events, ?_⟩
    by_cases hzero : sockError = 0
    · simp [hresult, hzero]
    · simp [hresult, hzero]
  · rename_i errno hresult
    exact ⟨_, handle_connect_of_error hresult s events, by simp [hresult]⟩

/-- The second part of an event continues at most the send. -/
theorem handleWriteEvent_continued (s : StreamSocket (H × Bool)) (events : Reactor.Events)
    (call : SystemResult) :
    ∃ rest, (s.handleWriteEvent events call).continued = s.continued ++ rest := by
  simp only [StreamSocket.handleWriteEvent]
  split
  · exact ⟨_, s.handle_continued .kSend events call⟩
  · exact ⟨[], by simp⟩

/-- A faithful socket serves what is pending on the other. -/
theorem Faithful.serves (h : Faithful σ.socket σ.bare) {events : Reactor.Events}
    {first second : SystemResult} (hopen : σ.bare.base.isClosed = false)
    (hτ : τ.socket = σ.socket.onReactorEvent events first second) : Serves σ events first τ := by
  have hopen : σ.socket.base.isClosed = false := h.base ▸ hopen
  -- the event goes to the connect or to the transfers, by the state that the sockets share
  have hconnect (hstate : σ.socket.streamSockState = .kConnecting) :
      τ.socket = σ.socket.handle .kConnect events first := by
    rw [hτ, StreamSocket.onReactorEvent, hopen, hstate]
    rfl
  have hdata (hstate : σ.socket.streamSockState = .kConnected) :
      τ.socket = σ.socket.handleDataTranster events first second := by
    rw [hτ, StreamSocket.onReactorEvent, hopen, hstate]
    rfl
  constructor
  · intro hstate hawaited
    rw [h.streamSockState] at hstate
    rw [hconnect hstate, handle_connect_of_awaited hawaited, h.completetionHandler]
    refine ⟨hstate, rfl, ?_⟩
    simp [StreamSocket.continuedBy, StreamSocket.setOperation, AsyncOperation.onContinuation]
  · intro hstate hended
    rw [h.streamSockState] at hstate
    obtain ⟨result, heq, houtcome⟩ := handle_connect_of_ended hended σ.socket events
    rw [hconnect hstate, heq, h.completetionHandler]
    refine ⟨result, rfl, rfl, ?_, houtcome⟩
    simp [StreamSocket.completedBy, StreamSocket.setOperation]
  · intro hstate hread hongoing
    rw [h.streamSockState] at hstate
    rw [h.ongoing] at hongoing
    have hhandle := σ.socket.handle_continued .kReceive events first
    rw [hdata hstate, StreamSocket.handleDataTranster, if_pos ⟨hread, hongoing⟩,
      h.completetionHandler]
    -- the send may come next, unless the handler of the receive is called first
    by_cases hidle : (σ.socket.handle .kReceive events first).phase = .idle
    · obtain ⟨rest, hrest⟩ :=
        handleWriteEvent_continued (σ.socket.handle .kReceive events first) events second
      refine ⟨rest, ?_⟩
      simp [hidle, hrest, hhandle]
    · exact ⟨[], by simp [hidle, hhandle]⟩
  · intro hstate hwrite hongoing hfirst
    rw [h.streamSockState] at hstate
    rw [h.ongoing] at hongoing hfirst
    rw [hdata hstate, StreamSocket.handleDataTranster, if_neg hfirst,
      StreamSocket.handleWriteEvent, if_pos ⟨hongoing, hwrite, hstate⟩, h.completetionHandler]
    exact ⟨[], σ.socket.handle_continued .kSend events second⟩

/-! ## Runs -/

/-- What a run keeps as long as the rejected calls change nothing. -/
structure Sound (σ : State H) : Prop where
  simulates : Simulates σ.socket σ.bare
  answers : Answers σ.socket

/-- The jobs are those of before, unless a call is answered at once. -/
theorem Answers.of_subset (h : Answers s) (hjobs : t.jobs ⊆ s.jobs) : Answers t :=
  fun job hjob => h job (hjobs hjob)

/-- The jobs after a step. -/
theorem jobs_of_step {b : Action (H × Bool)} (ht : s.step b = some t) :
    t.jobs ⊆ s.jobs ∨ ∃ start result, b = .start start ∧ s.start start = s.answered start result ∧
      t = s.answered start result := by
  -- the continuation of an operation posts no job
  have hidle : ∀ u : StreamSocket (H × Bool), u.jobs = s.jobs →
      { u with phase := .idle }.jobs = s.jobs := fun _ hu => hu
  have hhandle : ∀ (u : StreamSocket (H × Bool)) (opType : OperationType)
      (events : Reactor.Events) (call : SystemResult), u.jobs = s.jobs →
      ((u.operation opType).operationOngoing = true ∨
        opType = .kConnect ∧ u.streamSockState = .kConnecting) →
      (u.handle opType events call).jobs = s.jobs := by
    intro u opType events call hu _
    rcases u.handle_cases opType events call with ⟨n, heq⟩ | ⟨result, heq⟩
    · rw [heq]
      exact hu
    · rw [heq]
      exact hu
  cases b with
  | start start =>
    obtain rfl := Option.some.inj ht
    rcases s.start_cases start with ⟨n, heq⟩ | ⟨result, heq⟩
    · rw [heq]
      exact .inl (List.Subset.refl _)
    · exact .inr ⟨start, result, rfl, heq, heq⟩
  | event events first second =>
    simp only [StreamSocket.step] at ht
    split at ht
    · obtain rfl := Option.some.inj ht
      have hjobs := StreamSocket.onReactorEvent_of_handle hidle hhandle rfl events first second
      exact .inl (by rw [hjobs]; exact List.Subset.refl _)
    · cases ht
  | resume call =>
    simp only [StreamSocket.step] at ht
    split at ht
    · cases ht
    · obtain rfl := Option.some.inj ht
      have hjobs := StreamSocket.resume_of_handle hidle hhandle rfl call
      exact .inl (by rw [hjobs]; exact List.Subset.refl _)
  | runJob i =>
    obtain ⟨job, -, rfl⟩ := Option.map_eq_some_iff.mp ht
    exact .inl (List.eraseIdx_subset ..)
  | openSocket fd registered =>
    obtain rfl := Option.some.inj ht
    obtain ⟨base, heq⟩ := s.openSocket_cases fd registered
    rw [heq]
    exact .inl (List.Subset.refl _)
  | close deregistered inUse =>
    obtain rfl := Option.some.inj ht
    rcases s.close_cases deregistered inUse with ⟨-, heq⟩ | ⟨-, base, heq⟩
    · rw [heq]
      exact .inl (List.Subset.refl _)
    · rw [heq]
      exact .inl (List.Subset.refl _)
  | connect ok =>
    obtain rfl := Option.some.inj ht
    rcases s.connect_cases ok with heq | heq
    · rw [heq]
      exact .inl (List.Subset.refl _)
    · rw [heq]
      exact .inl (List.Subset.refl _)
  | sendSync notConnected =>
    obtain rfl := Option.some.inj ht
    rcases s.sendSync_cases notConnected with heq | heq
    · rw [heq]
      exact .inl (List.Subset.refl _)
    · rw [heq]
      exact .inl (List.Subset.refl _)

/-- The jobs of rejected calls stay as they are said to be. -/
theorem Answers.step (h : Answers σ.socket)
    (ht : σ.socket.step (a.map fun callback => (callback, rejects σ.socket a)) = some t) :
    Answers t := by
  rcases jobs_of_step ht with hsubset | ⟨start, result, hb, heq, rfl⟩
  · exact h.of_subset hsubset
  · cases a with
    | start a =>
      obtain rfl := Action.start.inj hb
      intro job hjob hrejected
      rcases List.mem_append.mp hjob with hjob | hjob
      · exact h job hjob hrejected
      · obtain rfl := List.mem_singleton.mp hjob
        -- the new job is flagged, so its call was rejected
        have hrejects : rejects σ.socket (.start a) = true := by
          simpa [accepted, Start.map] using hrejected
        obtain ⟨hconnect, error, herror⟩ := start_of_rejects hrejects (rejects σ.socket (.start a))
        have hjobs := congrArg StreamSocket.jobs (heq.symm.trans herror)
        have hjob := List.append_cancel_left hjobs
        simp only [List.cons.injEq, Job.mk.injEq, and_true, true_and] at hjob
        exact ⟨hconnect, error, hjob⟩
    | event | resume | runJob | openSocket | close | connect | sendSync => cases hb

/-- The parts of a step. -/
theorem step_cases (ht : σ.step a = some τ) :
    σ.socket.step (a.map fun callback => (callback, rejects σ.socket a)) = some τ.socket ∧
      τ.bare = if rejects σ.socket a ∨ σ.isAnswer a then σ.bare
        else (σ.bare.step (σ.bareAction a)).getD σ.bare := by
  obtain ⟨socket, hsocket, rfl⟩ := Option.map_eq_some_iff.mp ht
  exact ⟨hsocket, rfl⟩

/-- A harmless step keeps the sockets together. -/
theorem Sound.simulates_step (h : Sound σ) (ht : σ.step a = some τ) (hharmless : Harmless σ a) :
    Simulates τ.socket τ.bare := by
  obtain ⟨hsocket, hbare⟩ := step_cases ht
  cases a with
  | start start =>
    cases hrejects : rejects σ.socket (.start start) with
    | true =>
      rw [hrejects] at hsocket hbare
      obtain ⟨-, error, heq⟩ := start_of_rejects hrejects true
      rw [← Option.some.inj hsocket, hbare, heq]
      exact h.simulates.answered rfl _
    | false =>
      rw [hrejects] at hsocket hbare
      rw [← Option.some.inj hsocket, hbare]
      exact h.simulates.start rfl
  | event events first second =>
    simp only [Action.map, StreamSocket.step] at hsocket
    split at hsocket
    · rename_i hidle
      have hbare : τ.bare = σ.bare.onReactorEvent events first second := by
        rw [hbare]
        simp [rejects, State.isAnswer, State.bareAction, Action.map, StreamSocket.step,
          h.simulates.phase, hidle]
      rw [← Option.some.inj hsocket, hbare]
      exact h.simulates.onReactorEvent events first second
    · cases hsocket
  | resume call =>
    simp only [Action.map, StreamSocket.step] at hsocket
    split at hsocket
    · cases hsocket
    · rename_i hcalled
      have hbare : τ.bare = σ.bare.resume call := by
        rw [hbare]
        simp [rejects, State.isAnswer, State.bareAction, Action.map, StreamSocket.step,
          h.simulates.phase, hcalled]
      rw [← Option.some.inj hsocket, hbare]
      exact h.simulates.resume call
  | runJob i =>
    obtain ⟨job, hjob, heq⟩ := Option.map_eq_some_iff.mp hsocket
    cases haccepted : accepted job.callback with
    | true =>
      -- the other socket has the same job, at its place among the accepted ones
      obtain ⟨hfound, hrun⟩ := h.simulates.runJob hjob haccepted
      have hbare : τ.bare = σ.bare.runJob
          ((σ.socket.jobs.take i).countP fun job => accepted job.callback) job := by
        rw [hbare]
        simp [rejects, State.isAnswer, State.bareAction, StreamSocket.step, hjob, haccepted, hfound]
      rw [← heq, hbare]
      exact hrun
    | false =>
      have hbare : τ.bare = σ.bare := by
        rw [hbare]
        simp [State.isAnswer, hjob, haccepted]
      rw [← heq, hbare]
      exact (h.simulates.runJob_iff h.answers hjob haccepted).1 (hharmless job hjob haccepted)
  | openSocket fd registered =>
    rw [← Option.some.inj hsocket, hbare]
    exact h.simulates.openSocket fd registered
  | close deregistered inUse =>
    rw [← Option.some.inj hsocket, hbare]
    exact h.simulates.close deregistered inUse
  | connect ok =>
    rw [← Option.some.inj hsocket, hbare]
    exact h.simulates.connect ok
  | sendSync notConnected =>
    rw [← Option.some.inj hsocket, hbare]
    exact h.simulates.sendSync notConnected

/-- As long as the rejected calls have changed nothing, they change nothing with the next step if
and only if it is harmless. -/
theorem unharmed_iff_harmless (h : Sound σ) (ht : σ.step a = some τ) :
    Unharmed σ a τ ↔ Harmless σ a := by
  obtain ⟨hsocket, hbare⟩ := step_cases ht
  constructor
  · intro hunharmed
    cases a with
    | runJob i =>
      intro job hjob hrejected
      obtain ⟨found, hfound, heq⟩ := Option.map_eq_some_iff.mp hsocket
      obtain rfl : found = job := Option.some.inj (hfound.symm.trans hjob)
      have hsame : τ.bare = σ.bare := by
        rw [hbare]
        simp [State.isAnswer, hjob, hrejected]
      have hfaithful := hunharmed.faithful
      rw [← heq, hsame] at hfaithful
      exact (h.simulates.runJob_iff h.answers hjob hrejected).2 hfaithful
    | start | event | resume | openSocket | close | connect | sendSync => trivial
  · intro hharmless
    refine ⟨(h.simulates_step ht hharmless).toFaithful, ?_⟩
    -- the event is served by the state before the step, where the sockets agree
    rintro events first second rfl hopen
    simp only [Action.map, StreamSocket.step] at hsocket
    split at hsocket
    · exact h.simulates.toFaithful.serves hopen (Option.some.inj hsocket).symm
    · cases hsocket

/-- In every run of a stream socket the rejected calls of `ConnectAsync()` change nothing, and what
is pending is served, if and only if the job of a rejected call only runs when the socket is in the
state of a failed connect anyway. -/
theorem rejected_connect_harmless_iff (as : List (Action H)) :
    (machine H).Along Unharmed {} as ↔ (machine H).Along (fun σ a _ => Harmless σ a) {} as := by
  have hinit : Sound ({} : State H) := by
    refine ⟨⟨⟨rfl, rfl, fun _ => ⟨_, rfl⟩, rfl, rfl, rfl, rfl⟩, fun _ => rfl⟩, ?_⟩
    intro job hjob
    simp at hjob
  refine ToMathlib.Machine.along_iff_of_invariant hinit ?_ ?_
  · intro σ a τ h ht
    exact unharmed_iff_harmless h ht
  · intro σ a τ h ht hunharmed
    refine ⟨h.simulates_step ht ((unharmed_iff_harmless h ht).mp hunharmed), ?_⟩
    exact h.answers.step (step_cases ht).1

/-- A connect is pending when the next one is rejected, and the answer is given. -/
theorem not_unharmed_connect :
    ¬ (machine ℕ).Along Unharmed {} [.openSocket 3 (some 0),
      .start ⟨.connectAsync, ⟨100, 16⟩, 1, false, ⟨.error EINPROGRESS, 0⟩⟩,
      .start ⟨.connectAsync, ⟨100, 16⟩, 2, false, ⟨.ok 0, 0⟩⟩, .runJob 0] := by
  intro h
  have hopened := (h _ rfl).2
  have hpending := (hopened _ rfl).2
  have hrejected := (hpending _ rfl).2
  -- the socket is in `kConnectError`, the other still in `kConnecting`
  have hstate := (hrejected _ rfl).1.faithful.streamSockState
  cases hstate

end

end Asrt.Socket.Async.RejectedConnect
