import Asrt.Socket.ConnectOutcome

/-!
# The client's connect

`ConnectToServer()` of `Connection` (`client_server/connection.hpp`) starts a `ConnectAsync()` on
the stream socket. Its completion handler calls `InitiateHandshake()`, or, if the connect has
failed, posts a deferred job that calls `ConnectToServer()` again. The client may call
`ConnectToServer()` at any time, also while an earlier one is being retried, and may close the
socket at any time; the other functions of the socket are used as well.

The connect holds one callback on its way: in the operation of the socket, in a job of the executor
or in the deferred job. The result of `PostDeferred()` is not looked at: if there is no timer left,
the retry is lost.

## Main results

- `connect_tokens`: there are as many calls of `ConnectToServer()` by the client as there are
  attempts pending, retries deferred or lost, and handshakes started.
- `handshakes_of_stuck`: once the socket has an ongoing connect and is not connecting, no handshake
  is started any more.
- `connect_reaches_handshake_iff`: as long as nobody closes the socket or connects it otherwise,
  this is the only case in which the first handshake cannot be started by itself.
-/

namespace Asrt.ClientServer.Retry

open ToMathlib Socket Socket.Async
open Socket.Async.StreamSocket (connectState)

/-- The completion handlers of the operations. -/
inductive Callback
  /-- That of `ConnectToServer()`. -/
  | connectToServer
  | other
deriving DecidableEq, Repr

/-- `Connection`, as far as it connects to a server. -/
structure State where
  /-- `socket_` -/
  socket : StreamSocket Callback := {}
  /-- The deferred jobs that call `ConnectToServer()`. -/
  deferred : ℕ := 0
  /-- Ghost: how often `PostDeferred()` has failed. -/
  lost : ℕ := 0
  /-- How often `InitiateHandshake()` was called. -/
  handshakes : ℕ := 0
  /-- Ghost: how often the client has called `ConnectToServer()`. -/
  connects : ℕ := 0

/-- The steps of the client, the executor, the reactor and the kernel. -/
inductive Action
  /-- The client calls `ConnectToServer()`. -/
  | connectToServer (server : Async.BufferView) (call : SystemResult)
  /-- A deferred job is executed. -/
  | retry (server : Async.BufferView) (call : SystemResult)
  /-- A step of the socket, but no connect. `PostDeferred()` succeeds or not, if the step calls the
  completion handler with an error. -/
  | socket (a : Socket.Async.Action Unit) (posted : Bool := true)

/-- `ConnectAsync()` by `ConnectToServer()`. -/
def connectAsync (server : Async.BufferView) (call : SystemResult) : Start Callback where
  function := .connectAsync
  view := server
  callback := .connectToServer
  readable := false
  call := call

/-- The completion handler of `ConnectToServer()` was called. -/
def isReport (report : Option Callback × CompletionResult) : Bool :=
  report.1 = some .connectToServer

/-- It was called with a success. -/
def isSuccess (report : Option Callback × CompletionResult) : Bool :=
  isReport report && match report.2 with
    | .ok _ => true
    | .error _ => false

/-- It was called with an error. -/
def isFailure (report : Option Callback × CompletionResult) : Bool :=
  isReport report && !isSuccess report

/-- The step is a connect. -/
def isConnect : Socket.Async.Action Unit → Bool
  | .start a => a.function = .connectAsync
  | .event .. | .resume .. | .runJob .. | .openSocket .. | .close .. | .connect .. | .sendSync .. =>
    false

namespace State

/-- `PostDeferred()` for each of the retries. -/
def postDeferred (σ : State) (retries : ℕ) (posted : Bool) : State :=
  if posted then { σ with deferred := σ.deferred + retries }
  else { σ with lost := σ.lost + retries }

/-- The state after a step of the socket, with what the completion handler of `ConnectToServer()`
does if it was called. -/
def settle (σ : State) (socket : StreamSocket Callback) (posted : Bool) : State :=
  let reports := socket.called.drop σ.socket.called.length
  { σ with
    socket
    handshakes := σ.handshakes + reports.countP isSuccess }.postDeferred
      (reports.countP isFailure) posted

/-- `ConnectToServer()` -/
def connectToServer (σ : State) (server : Async.BufferView) (call : SystemResult) : State :=
  { σ with socket := σ.socket.start (connectAsync server call) }

/-- The step labelled by an action, if it is enabled. -/
def step (σ : State) : Action → Option State
  | .connectToServer server call =>
    some { σ.connectToServer server call with connects := σ.connects + 1 }
  | .retry server call =>
    if 0 < σ.deferred then
      some ({ σ with deferred := σ.deferred - 1 }.connectToServer server call)
    else none
  | .socket a posted =>
    if isConnect a then none
    else (σ.socket.step (a.map fun _ => .other)).map fun socket => σ.settle socket posted

end State

/-- A client's connection as a machine. -/
def machine : Machine State Action where
  init σ := σ = {}
  step := State.step

/-! ## Attempts -/

/-- The connects that are not reported yet. -/
def attempts (s : StreamSocket Callback) : ℕ :=
  (if (s.operation .kConnect).operationOngoing then 1 else 0) +
    s.jobs.countP fun job => job.opType = .kConnect

/-- The callbacks are where they belong. -/
structure Sound (s : StreamSocket Callback) : Prop where
  handler : (s.operation .kConnect).operationOngoing = true →
    (s.operation .kConnect).completetionHandler.value = some .connectToServer
  others : ∀ opType ≠ .kConnect,
    (s.operation opType).completetionHandler.value ≠ some .connectToServer
  jobs : ∀ job ∈ s.jobs, job.callback = some .connectToServer ↔ job.opType = .kConnect
  connecting : s.streamSockState = .kConnecting → (s.operation .kConnect).operationOngoing = true

/-- From `s` to `t` every connect is still on its way or was reported. -/
structure Accounted (s t : StreamSocket Callback) : Prop where
  sound : Sound t
  reports : ∃ reports, t.called = s.called ++ reports ∧
    attempts t + reports.countP isReport = attempts s

variable {s t : StreamSocket Callback}

theorem Accounted.refl (h : Sound s) : Accounted s s := ⟨h, [], by simp⟩

/-- A step that leaves the operations and the jobs alone, and does not start to connect. -/
theorem Accounted.of_eq {u : StreamSocket Callback} (h : Accounted u s)
    (hoperation : t.operation = s.operation) (hjobs : t.jobs = s.jobs)
    (hcalled : t.called = s.called)
    (hstate : t.streamSockState = .kConnecting → s.streamSockState = .kConnecting) :
    Accounted u t := by
  obtain ⟨⟨hhandler, hothers, hholds, hconnecting⟩, hreports⟩ := h
  refine ⟨⟨?_, ?_, ?_, ?_⟩, ?_⟩
  · rwa [hoperation]
  · rwa [hoperation]
  · rwa [hjobs]
  · intro hnow
    rw [hoperation]
    exact hconnecting (hstate hnow)
  · rwa [hcalled, attempts, hoperation, hjobs]

theorem setOperation_operation (s : StreamSocket Callback) (opType : OperationType)
    (op : AsyncOperation Callback) :
    (s.setOperation opType op).operation = Function.update s.operation opType op := rfl

/-- The callbacks after one of the other operations was replaced. -/
theorem Sound.setOperation (h : Sound s) {opType : OperationType} (hne : opType ≠ .kConnect)
    (op : AsyncOperation Callback)
    (hop : op.completetionHandler.value ≠ some .connectToServer) :
    Sound (s.setOperation opType op) := by
  have hconnect : (s.setOperation opType op).operation .kConnect = s.operation .kConnect :=
    Function.update_of_ne hne.symm ..
  refine ⟨?_, ?_, h.jobs, ?_⟩
  · rw [hconnect]
    exact h.handler
  · intro other hother
    by_cases heq : other = opType
    · subst heq
      rw [setOperation_operation, Function.update_self]
      exact hop
    · rw [setOperation_operation, Function.update_of_ne heq]
      exact h.others other hother
  · rw [hconnect]
    exact h.connecting

/-- An event continues the connect that is pending, or reports it. -/
theorem Accounted.handle_connect {u : StreamSocket Callback} (h : Accounted u s)
    (hongoing : (s.operation .kConnect).operationOngoing = true) (events : Reactor.Events)
    (call : SystemResult) : Accounted u (s.handle .kConnect events call) := by
  obtain ⟨hsound, reports, hcalled, hcount⟩ := h
  have hhandler := hsound.handler hongoing
  simp only [attempts, hongoing, if_true] at hcount
  rcases s.handle_cases .kConnect events call with ⟨n, heq⟩ | ⟨result, heq⟩
  · rw [heq]
    refine ⟨⟨?_, ?_, hsound.jobs, ?_⟩, reports, hcalled, ?_⟩
    · intro _
      simpa [StreamSocket.continuedBy, StreamSocket.setOperation, AsyncOperation.onContinuation]
        using hhandler
    · intro opType hne
      simpa [StreamSocket.continuedBy, StreamSocket.setOperation, hne]
        using hsound.others opType hne
    · intro _
      simp [StreamSocket.continuedBy, StreamSocket.setOperation, AsyncOperation.onContinuation]
    · simpa [attempts, StreamSocket.continuedBy, StreamSocket.setOperation,
        AsyncOperation.onContinuation] using hcount
  · rw [heq]
    refine ⟨⟨?_, ?_, hsound.jobs, ?_⟩,
      reports ++ [((s.operation .kConnect).completetionHandler.value, result)], ?_, ?_⟩
    · simp [StreamSocket.completedBy, StreamSocket.setOperation]
    · intro opType hne
      simpa [StreamSocket.completedBy, StreamSocket.setOperation, hne]
        using hsound.others opType hne
    · intro hconnecting
      exact absurd hconnecting (ConnectOutcome.connectState_ne_kConnecting result)
    · simp [StreamSocket.completedBy, hcalled]
    · -- the operation is done, and its callback was called
      simp [attempts, StreamSocket.completedBy, StreamSocket.setOperation, hhandler, isReport]
      omega

theorem Accounted.handle_of_ne {u : StreamSocket Callback} (h : Accounted u s)
    {opType : OperationType} (hne : opType ≠ .kConnect) (events : Reactor.Events)
    (call : SystemResult) : Accounted u (s.handle opType events call) := by
  obtain ⟨hsound, reports, hcalled, hcount⟩ := h
  have hother := hsound.others opType hne
  rcases s.handle_cases opType events call with ⟨n, heq⟩ | ⟨result, heq⟩
  · rw [heq]
    have hsound' := hsound.setOperation hne ((s.operation opType).onContinuation n) hother
    refine ⟨⟨hsound'.handler, hsound'.others, hsound'.jobs, hsound'.connecting⟩, reports, hcalled,
      ?_⟩
    simpa [attempts, StreamSocket.continuedBy, StreamSocket.setOperation, hne.symm] using hcount
  · rw [heq]
    have hsound' := hsound.setOperation hne
      { (s.operation opType).setResult result with operationOngoing := false } hother
    refine ⟨⟨hsound'.handler, hsound'.others, hsound'.jobs, ?_⟩,
      reports ++ [((s.operation opType).completetionHandler.value, result)], ?_, ?_⟩
    · intro hconnecting
      refine hsound'.connecting ?_
      simpa [StreamSocket.completedBy, StreamSocket.setOperation, hne] using hconnecting
    · simp [StreamSocket.completedBy, hcalled]
    · have hreport : isReport ((s.operation opType).completetionHandler.value, result) = false := by
        simpa [isReport] using hother
      simpa [attempts, StreamSocket.completedBy, StreamSocket.setOperation, hne.symm, hreport]
        using hcount

/-- Every connect is accounted for when an operation is continued. -/
theorem Accounted.handle {u : StreamSocket Callback} (h : Accounted u s) {opType : OperationType}
    (hop : (s.operation opType).operationOngoing = true ∨
      opType = .kConnect ∧ s.streamSockState = .kConnecting) (events : Reactor.Events)
    (call : SystemResult) : Accounted u (s.handle opType events call) := by
  by_cases hne : opType = .kConnect
  · subst hne
    refine h.handle_connect ?_ events call
    rcases hop with hongoing | ⟨-, hconnecting⟩
    · exact hongoing
    · exact h.sound.connecting hconnecting
  · exact h.handle_of_ne hne events call

theorem Accounted.idle {u : StreamSocket Callback} (h : Accounted u s) :
    Accounted u { s with phase := .idle } :=
  h.of_eq rfl rfl rfl id

/-- A job reports its connect. -/
theorem Accounted.runJob (h : Sound s) {i : ℕ} {job : Job Callback} (hjob : s.jobs[i]? = some job) :
    Accounted s (s.runJob i job) := by
  have hmem : job ∈ s.jobs := List.mem_of_getElem? hjob
  have herase := (cons_eraseIdx_perm hjob).countP_eq fun job : Job Callback =>
    decide (job.opType = .kConnect)
  rw [List.countP_cons] at herase
  refine ⟨⟨h.handler, h.others, fun j hj => h.jobs j (List.mem_of_mem_eraseIdx hj), ?_⟩,
    [(job.callback, job.result)], rfl, ?_⟩
  · intro hconnecting
    simp only [StreamSocket.runJob] at hconnecting
    split at hconnecting
    · exact absurd hconnecting (ConnectOutcome.connectState_ne_kConnecting _)
    · exact h.connecting hconnecting
  · have hreport : isReport (job.callback, job.result) = decide (job.opType = .kConnect) := by
      simp only [isReport, h.jobs job hmem]
    rw [List.countP_singleton, hreport, attempts, attempts, ← herase]
    exact Nat.add_assoc ..

/-- A start of another operation. -/
theorem Accounted.start_other (h : Sound s) {a : Start Callback} (hother : a.opType ≠ .kConnect)
    (hcallback : a.callback = .other) : Accounted s (s.start a) := by
  have hne : some a.callback ≠ some Callback.connectToServer := by simp [hcallback]
  rcases s.start_cases a with ⟨n, heq⟩ | ⟨result, heq⟩
  · rw [heq]
    have hsound := h.setOperation hother
      ((s.operation a.opType).onInitiation a.callback a.view a.isExhaustive n) hne
    refine ⟨⟨hsound.handler, hsound.others, hsound.jobs, ?_⟩, [], ?_, ?_⟩
    · intro hconnecting
      refine hsound.connecting ?_
      simpa [StreamSocket.started, StreamSocket.setOperation, hother] using hconnecting
    · simp [StreamSocket.started, StreamSocket.setOperation]
    · simp [attempts, StreamSocket.started, StreamSocket.setOperation, hother.symm]
  · rw [heq]
    have hsound := h.setOperation hother ((s.operation a.opType).setResult result)
      (h.others a.opType hother)
    refine ⟨⟨hsound.handler, hsound.others, ?_, hsound.connecting⟩, [], ?_, ?_⟩
    · intro job hjob
      rcases List.mem_append.mp hjob with hjob | hjob
      · exact hsound.jobs job hjob
      · obtain rfl := List.mem_singleton.mp hjob
        simp [hcallback, hother]
    · simp [StreamSocket.answered, StreamSocket.setOperation]
    · simp [attempts, StreamSocket.answered, StreamSocket.setOperation, hother, hother.symm]

/-- `ConnectToServer()` makes one attempt more. If there is one pending, it is left alone. -/
theorem connectAsync_accounted (h : Sound s) (server : Async.BufferView) (call : SystemResult) :
    Sound (s.start (connectAsync server call)) ∧
      attempts (s.start (connectAsync server call)) = attempts s + 1 ∧
      (s.start (connectAsync server call)).called = s.called := by
  have hanswered : ∀ result, Sound (s.answered (connectAsync server call) result) ∧
      attempts (s.answered (connectAsync server call) result) = attempts s + 1 ∧
      (s.answered (connectAsync server call) result).called = s.called := by
    intro result
    refine ⟨⟨?_, ?_, ?_, ?_⟩, ?_, rfl⟩
    · simpa [StreamSocket.answered, setOperation_operation, connectAsync, Start.opType,
        AsyncOperation.setResult] using h.handler
    · intro opType hne
      simpa [StreamSocket.answered, setOperation_operation, connectAsync, Start.opType, hne]
        using h.others opType hne
    · intro job hjob
      rcases List.mem_append.mp hjob with hjob | hjob
      · exact h.jobs job hjob
      · obtain rfl := List.mem_singleton.mp hjob
        simp [connectAsync, Start.opType]
    · intro hconnecting
      simpa [StreamSocket.answered, setOperation_operation, connectAsync, Start.opType,
        AsyncOperation.setResult] using h.connecting hconnecting
    · simp [attempts, StreamSocket.answered, StreamSocket.setOperation, connectAsync, Start.opType,
        AsyncOperation.setResult]
      omega
  by_cases hongoing : (s.operation .kConnect).operationOngoing = true
  · -- the attempt is refused, and a job reports so
    have heq : s.start (connectAsync server call) =
        s.answered (connectAsync server call) (.error .asyncOperationInProgress) :=
      StreamSocket.doStart_of_ongoing hongoing false server .connectToServer call
    rw [heq]
    exact hanswered _
  rcases s.start_cases (connectAsync server call) with ⟨n, heq⟩ | ⟨result, heq⟩
  · rw [heq]
    refine ⟨⟨?_, ?_, h.jobs, ?_⟩, ?_, rfl⟩
    · simp [connectAsync, Start.opType, AsyncOperation.onInitiation, Stored.assign]
    · intro opType hne
      simpa [connectAsync, Start.opType, hne] using h.others opType hne
    · simp [connectAsync, Start.opType, AsyncOperation.onInitiation]
    · simp [attempts, StreamSocket.started, StreamSocket.setOperation, connectAsync, Start.opType,
        AsyncOperation.onInitiation, hongoing]
      omega
  · rw [heq]
    exact hanswered result

/-- No other step of the socket loses or doubles a connect. -/
theorem Accounted.of_step (h : Sound s) {a : Socket.Async.Action Unit} (ha : isConnect a = false)
    (hstep : s.step (a.map fun _ => .other) = some t) : Accounted s t := by
  have hrefl := Accounted.refl h
  cases a with
  | start a =>
    obtain rfl := Option.some.inj hstep
    refine Accounted.start_other h ?_ rfl
    simp only [isConnect, decide_eq_false_iff_not] at ha
    cases hfunction : a.function with
    | connectAsync => exact absurd hfunction ha
    | sendAsync | receive => simp [Start.opType, Start.map, hfunction]
  | event events first second =>
    obtain ⟨-, hstep⟩ := Option.ite_none_right_eq_some.mp hstep
    obtain rfl := Option.some.inj hstep
    exact StreamSocket.onReactorEvent_of_handle (R := Accounted s) (fun _ h => h.idle)
      (fun _ _ events call h hop => h.handle hop events call) hrefl events first second
  | resume call =>
    obtain ⟨-, hstep⟩ := Option.ite_none_left_eq_some.mp hstep
    obtain rfl := Option.some.inj hstep
    exact StreamSocket.resume_of_handle (R := Accounted s) (fun _ h => h.idle)
      (fun _ _ events call h hop => h.handle hop events call) hrefl call
  | runJob i =>
    obtain ⟨job, hjob, rfl⟩ := Option.map_eq_some_iff.mp hstep
    exact .runJob h hjob
  | openSocket fd registered =>
    obtain rfl := Option.some.inj hstep
    obtain ⟨base, heq⟩ := s.openSocket_cases fd registered
    rw [heq]
    exact hrefl.of_eq rfl rfl rfl id
  | close deregistered inUse =>
    obtain rfl := Option.some.inj hstep
    rcases s.close_cases deregistered inUse with ⟨-, heq⟩ | ⟨-, base, heq⟩
    · rw [heq]
      exact hrefl
    · rw [heq]
      exact hrefl.of_eq rfl rfl rfl (by simp)
  | connect ok =>
    obtain rfl := Option.some.inj hstep
    rcases s.connect_cases ok with heq | heq
    · rw [heq]
      exact hrefl
    · rw [heq]
      exact hrefl.of_eq rfl rfl rfl (by simp)
  | sendSync notConnected =>
    obtain rfl := Option.some.inj hstep
    rcases s.sendSync_cases notConnected with heq | heq
    · rw [heq]
      exact hrefl
    · rw [heq]
      exact hrefl.of_eq rfl rfl rfl (by simp)

/-! ## Tokens -/

/-- Every report is a success or a failure. -/
theorem countP_isReport (reports : List (Option Callback × CompletionResult)) :
    reports.countP isReport = reports.countP isSuccess + reports.countP isFailure := by
  induction reports with
  | nil => rfl
  | cons report reports ih =>
    simp only [List.countP_cons, ih, isFailure, isSuccess]
    split_ifs <;> simp_all <;> omega

namespace State

variable {σ σ' : State} {a : Action}

@[simp] theorem postDeferred_socket (σ : State) (retries : ℕ) (posted : Bool) :
    (σ.postDeferred retries posted).socket = σ.socket := by
  rw [postDeferred]
  split <;> rfl

@[simp] theorem postDeferred_handshakes (σ : State) (retries : ℕ) (posted : Bool) :
    (σ.postDeferred retries posted).handshakes = σ.handshakes := by
  rw [postDeferred]
  split <;> rfl

@[simp] theorem postDeferred_connects (σ : State) (retries : ℕ) (posted : Bool) :
    (σ.postDeferred retries posted).connects = σ.connects := by
  rw [postDeferred]
  split <;> rfl

@[simp] theorem settle_socket (σ : State) (t : StreamSocket Callback) (posted : Bool) :
    (σ.settle t posted).socket = t := by simp [settle]

/-- Where the calls of `ConnectToServer()` are. -/
def tokens (σ : State) : ℕ := attempts σ.socket + σ.deferred + σ.lost + σ.handshakes

/-- A retry is deferred or lost. -/
theorem tokens_postDeferred (σ : State) (retries : ℕ) (posted : Bool) :
    (σ.postDeferred retries posted).tokens = σ.tokens + retries := by
  cases posted with
  | true =>
    simp only [tokens, postDeferred, if_true]
    omega
  | false =>
    simp only [tokens, postDeferred, Bool.false_eq_true, if_false]
    omega

theorem tokens_settle (h : Accounted σ.socket t) (posted : Bool) :
    (σ.settle t posted).tokens = σ.tokens := by
  obtain ⟨-, reports, hcalled, hcount⟩ := h
  have hdrop : t.called.drop σ.socket.called.length = reports := by rw [hcalled, List.drop_left]
  simp only [settle, hdrop, tokens_postDeferred]
  simp only [tokens, ← hcount, countP_isReport]
  omega

theorem tokens_connectToServer (h : Sound σ.socket) (server : Async.BufferView)
    (call : SystemResult) :
    (σ.connectToServer server call).tokens = σ.tokens + 1 := by
  simp only [tokens, connectToServer, (connectAsync_accounted h server call).2.1]
  omega

/-- The invariant of a client's connection. -/
structure Inv (σ : State) : Prop where
  sound : Sound σ.socket
  tokens : σ.tokens = σ.connects

theorem inv_init : Inv {} where
  sound := ⟨nofun, by simp, by simp, nofun⟩
  tokens := rfl

/-- Every step keeps the invariant. -/
theorem Inv.step (h : σ.Inv) (hstep : σ.step a = some σ') : σ'.Inv := by
  cases a with
  | connectToServer server call =>
    obtain rfl := Option.some.inj hstep
    refine ⟨(connectAsync_accounted h.sound server call).1, ?_⟩
    exact (tokens_connectToServer h.sound server call).trans (congrArg (· + 1) h.tokens)
  | retry server call =>
    obtain ⟨hpos, hstep⟩ := Option.ite_none_right_eq_some.mp hstep
    obtain rfl := Option.some.inj hstep
    refine ⟨(connectAsync_accounted h.sound server call).1, ?_⟩
    -- the deferred job becomes an attempt
    have hfewer : { σ with deferred := σ.deferred - 1 }.tokens + 1 = σ.tokens := by
      simp only [State.tokens]
      omega
    rw [tokens_connectToServer (σ := { σ with deferred := σ.deferred - 1 }) h.sound, hfewer]
    exact h.tokens
  | socket a posted =>
    obtain ⟨hother, hstep⟩ := Option.ite_none_left_eq_some.mp hstep
    obtain ⟨t, ht, rfl⟩ := Option.map_eq_some_iff.mp hstep
    have haccounted := Accounted.of_step h.sound (by simpa using hother) ht
    refine ⟨(settle_socket σ t posted).symm ▸ haccounted.sound, ?_⟩
    rw [tokens_settle haccounted, h.tokens]
    simp [settle]

theorem inv_of_reachable (hσ : machine.Reachable σ) : σ.Inv := by
  refine hσ.invariant ?_ ?_
  · rintro _ rfl
    exact inv_init
  · intro σ a σ' h _ hstep
    exact h.step hstep

/-- In every run of a client's connection, whatever the kernel answers and whenever the client
calls, closes and opens the socket, the calls of `ConnectToServer()` by the client are as many as
the attempts on their way, the retries that are deferred, those that `PostDeferred()` has failed
for, and the handshakes started. -/
theorem connect_tokens (hσ : machine.Reachable σ) :
    attempts σ.socket + σ.deferred + σ.lost + σ.handshakes = σ.connects :=
  (inv_of_reachable hσ).tokens

/-- The first attempt fails at once, and a second call comes in while its retry is pending. -/
theorem connect_tokens_two_calls :
    ∃ σ, machine.Reachable σ ∧ σ.connects = 2 ∧ σ.handshakes = 1 ∧
      attempts σ.socket + σ.deferred + σ.lost = 1 := by
  have hσ := Machine.reachableIn_get_run (M := machine) (C := Machine.Always)
    (l := [.socket (.openSocket 3 (some 0)),
      .connectToServer ⟨100, 16⟩ ⟨.error 111, 0⟩, .socket (.runJob 0),
      .retry ⟨100, 16⟩ ⟨.error EINPROGRESS, 0⟩, .connectToServer ⟨100, 16⟩ ⟨.ok 0, 0⟩,
      .socket (.event Reactor.Events.kWrite ⟨.ok 0, 0⟩ ⟨.ok 0, 0⟩), .socket (.runJob 0)])
    (s := {}) rfl (by decide)
  refine ⟨_, hσ, by decide, by decide, ?_⟩
  exact Nat.add_right_cancel ((connect_tokens hσ).trans (by decide))

/-- Without a timer for it the retry is lost. -/
example : (machine.run Machine.Always {} [.socket (.openSocket 3 (some 0)),
    .connectToServer ⟨100, 16⟩ ⟨.error 111, 0⟩, .socket (.runJob 0) false]).map
      (fun σ => (attempts σ.socket, σ.deferred, σ.lost)) = some (0, 0, 1) := by
  decide

end State

/-! ## Connects that never end -/

/-- The socket has an ongoing connect, but is not connecting, and no success is to be reported. -/
structure Stuck (s : StreamSocket Callback) : Prop where
  ongoing : (s.operation .kConnect).operationOngoing = true
  state : s.streamSockState ≠ .kConnecting
  jobs : ∀ job ∈ s.jobs, isSuccess (job.callback, job.result) = false

/-- From `s` to `t` the socket remains stuck, and no success was reported. -/
structure StaysStuck (s t : StreamSocket Callback) : Prop where
  sound : Sound t
  stuck : Stuck t
  reports : ∃ reports, t.called = s.called ++ reports ∧ reports.countP isSuccess = 0

theorem StaysStuck.refl (h : Sound s) (hstuck : Stuck s) : StaysStuck s s :=
  ⟨h, hstuck, [], by simp⟩

/-- A callback of another operation reports no success of the connect. -/
theorem isSuccess_of_ne {callback : Option Callback} (h : callback ≠ some .connectToServer)
    (result : CompletionResult) : isSuccess (callback, result) = false := by
  simp [isSuccess, isReport, h]

theorem StaysStuck.idle {u : StreamSocket Callback} (h : StaysStuck u s) :
    StaysStuck u { s with phase := .idle } :=
  ⟨⟨h.sound.handler, h.sound.others, h.sound.jobs, h.sound.connecting⟩,
    ⟨h.stuck.ongoing, h.stuck.state, h.stuck.jobs⟩, h.reports⟩

/-- Sends and receives do not end the connect. -/
theorem StaysStuck.handle {u : StreamSocket Callback} (h : StaysStuck u s)
    {opType : OperationType} (hne : opType ≠ .kConnect) (events : Reactor.Events)
    (call : SystemResult) : StaysStuck u (s.handle opType events call) := by
  have hsound := ((Accounted.refl h.sound).handle_of_ne hne events call).sound
  obtain ⟨reports, hcalled, hcount⟩ := h.reports
  rcases s.handle_cases opType events call with ⟨n, heq⟩ | ⟨result, heq⟩
  · rw [heq] at hsound ⊢
    refine ⟨hsound, ⟨?_, h.stuck.state, h.stuck.jobs⟩, reports, hcalled, hcount⟩
    simpa [StreamSocket.continuedBy, StreamSocket.setOperation, hne.symm] using h.stuck.ongoing
  · rw [heq] at hsound ⊢
    refine ⟨hsound, ⟨?_, ?_, h.stuck.jobs⟩,
      reports ++ [((s.operation opType).completetionHandler.value, result)], ?_, ?_⟩
    · simpa [StreamSocket.completedBy, StreamSocket.setOperation, hne.symm] using h.stuck.ongoing
    · simpa [StreamSocket.completedBy, StreamSocket.setOperation, hne] using h.stuck.state
    · simp [StreamSocket.completedBy, hcalled]
    · simp [hcount, isSuccess_of_ne (h.sound.others opType hne)]

/-- A socket that is stuck refuses every further connect. -/
theorem StaysStuck.connectAsync (h : Sound s) (hstuck : Stuck s) (server : Async.BufferView)
    (call : SystemResult) : StaysStuck s (s.start (connectAsync server call)) := by
  have hsound := (connectAsync_accounted h server call).1
  have heq : s.start (Retry.connectAsync server call) =
      s.answered (Retry.connectAsync server call) (.error .asyncOperationInProgress) :=
    StreamSocket.doStart_of_ongoing hstuck.ongoing false server .connectToServer call
  rw [heq] at hsound ⊢
  refine ⟨hsound, ⟨?_, hstuck.state, ?_⟩, [], ?_, by simp⟩
  · simpa [Retry.connectAsync, Start.opType, AsyncOperation.setResult] using hstuck.ongoing
  · intro job hjob
    rcases List.mem_append.mp hjob with hjob | hjob
    · exact hstuck.jobs job hjob
    · obtain rfl := List.mem_singleton.mp hjob
      simp [isSuccess]
  · simp [StreamSocket.answered, StreamSocket.setOperation]

/-- No other step of the socket ends the connect either. -/
theorem StaysStuck.of_step (h : Sound s) (hstuck : Stuck s) {a : Socket.Async.Action Unit}
    (ha : isConnect a = false) (hstep : s.step (a.map fun _ => .other) = some t) :
    StaysStuck s t := by
  have hsound := (Accounted.of_step h ha hstep).sound
  have hrefl := StaysStuck.refl h hstuck
  cases a with
  | start a =>
    obtain rfl := Option.some.inj hstep
    have hother : (a.map fun _ => Callback.other).opType ≠ .kConnect := by
      simp only [isConnect, decide_eq_false_iff_not] at ha
      cases hfunction : a.function with
      | connectAsync => exact absurd hfunction ha
      | sendAsync | receive => simp [Start.opType, Start.map, hfunction]
    rcases s.start_cases (a.map fun _ => .other) with ⟨n, heq⟩ | ⟨result, heq⟩
    · rw [heq] at hsound ⊢
      refine ⟨hsound, ⟨?_, ?_, hstuck.jobs⟩, [], ?_, by simp⟩
      · simpa [hother.symm] using hstuck.ongoing
      · simpa [StreamSocket.started, hother] using hstuck.state
      · simp [StreamSocket.started, StreamSocket.setOperation]
    · rw [heq] at hsound ⊢
      refine ⟨hsound, ⟨?_, hstuck.state, ?_⟩, [], ?_, by simp⟩
      · simpa [hother.symm] using hstuck.ongoing
      · intro job hjob
        rcases List.mem_append.mp hjob with hjob | hjob
        · exact hstuck.jobs job hjob
        · obtain rfl := List.mem_singleton.mp hjob
          exact isSuccess_of_ne (by simp [Start.map]) result
      · simp [StreamSocket.answered, StreamSocket.setOperation]
  | event events first second =>
    obtain ⟨-, hstep⟩ := Option.ite_none_right_eq_some.mp hstep
    obtain rfl := Option.some.inj hstep
    exact StreamSocket.onReactorEvent_of_transfer (R := StaysStuck s) (fun _ h => h.idle)
      (fun _ _ events call h hne => h.handle hne events call) hrefl hstuck.state events first
      second
  | resume call =>
    obtain ⟨-, hstep⟩ := Option.ite_none_left_eq_some.mp hstep
    obtain rfl := Option.some.inj hstep
    exact StreamSocket.resume_of_transfer (R := StaysStuck s) (fun _ h => h.idle)
      (fun _ _ events call h hne => h.handle hne events call) hrefl call
  | runJob i =>
    obtain ⟨job, hjob, rfl⟩ := Option.map_eq_some_iff.mp hstep
    have hfailure := hstuck.jobs job (List.mem_of_getElem? hjob)
    refine ⟨hsound, ⟨hstuck.ongoing, ?_, ?_⟩, [(job.callback, job.result)], rfl, by simp [hfailure]⟩
    · -- a failure is reported, which does not make the socket connecting again
      simp only [StreamSocket.runJob]
      split
      · exact ConnectOutcome.connectState_ne_kConnecting _
      · exact hstuck.state
    · intro job hjob
      exact hstuck.jobs job (List.mem_of_mem_eraseIdx hjob)
  | openSocket fd registered =>
    obtain rfl := Option.some.inj hstep
    obtain ⟨base, heq⟩ := s.openSocket_cases fd registered
    rw [heq] at hsound ⊢
    exact ⟨hsound, ⟨hstuck.ongoing, hstuck.state, hstuck.jobs⟩, [], by simp⟩
  | close deregistered inUse =>
    obtain rfl := Option.some.inj hstep
    rcases s.close_cases deregistered inUse with ⟨-, heq⟩ | ⟨-, base, heq⟩
    · rw [heq]
      exact hrefl
    · rw [heq] at hsound ⊢
      exact ⟨hsound, ⟨hstuck.ongoing, by simp, hstuck.jobs⟩, [], by simp⟩
  | connect ok =>
    obtain rfl := Option.some.inj hstep
    rcases s.connect_cases ok with heq | heq
    · rw [heq]
      exact hrefl
    · rw [heq] at hsound ⊢
      exact ⟨hsound, ⟨hstuck.ongoing, by simp, hstuck.jobs⟩, [], by simp⟩
  | sendSync notConnected =>
    obtain rfl := Option.some.inj hstep
    rcases s.sendSync_cases notConnected with heq | heq
    · rw [heq]
      exact hrefl
    · rw [heq] at hsound ⊢
      exact ⟨hsound, ⟨hstuck.ongoing, by simp, hstuck.jobs⟩, [], by simp⟩

namespace State

variable {σ σ' τ : State} {a : Action}

theorem handshakes_settle (h : StaysStuck σ.socket t) (posted : Bool) :
    (σ.settle t posted).handshakes = σ.handshakes := by
  obtain ⟨-, -, reports, hcalled, hcount⟩ := h
  have hdrop : t.called.drop σ.socket.called.length = reports := by rw [hcalled, List.drop_left]
  simp only [settle, hdrop, hcount, Nat.add_zero, postDeferred_handshakes]

/-- A connection that is stuck remains so. -/
theorem stuck_of_step (h : σ.Inv) (hstuck : Stuck σ.socket) (hstep : σ.step a = some σ') :
    Stuck σ'.socket ∧ σ'.handshakes = σ.handshakes := by
  cases a with
  | connectToServer server call =>
    obtain rfl := Option.some.inj hstep
    exact ⟨(StaysStuck.connectAsync h.sound hstuck server call).stuck, rfl⟩
  | retry server call =>
    obtain ⟨-, hstep⟩ := Option.ite_none_right_eq_some.mp hstep
    obtain rfl := Option.some.inj hstep
    exact ⟨(StaysStuck.connectAsync h.sound hstuck server call).stuck, rfl⟩
  | socket a posted =>
    obtain ⟨hother, hstep⟩ := Option.ite_none_left_eq_some.mp hstep
    obtain ⟨t, ht, rfl⟩ := Option.map_eq_some_iff.mp hstep
    have hstays := StaysStuck.of_step h.sound hstuck (by simpa using hother) ht
    exact ⟨(settle_socket σ t posted).symm ▸ hstays.stuck, handshakes_settle hstays posted⟩

/-- In a run from a connection that is stuck no handshake is started. -/
theorem handshakes_of_run (h : σ.Inv) (hstuck : Stuck σ.socket) {as : List Action}
    (hrun : machine.run Machine.Always σ as = some τ) : τ.handshakes = σ.handshakes := by
  have hkept : τ.Inv ∧ Stuck τ.socket ∧ τ.handshakes = σ.handshakes := by
    refine Machine.run_invariant (I := fun τ : State => τ.Inv ∧ Stuck τ.socket ∧
      τ.handshakes = σ.handshakes) ⟨h, hstuck, rfl⟩ hrun ?_
    rintro τ a τ' - ⟨hinv, hstuck, hcount⟩ - hstep
    obtain ⟨hstuck', hcount'⟩ := stuck_of_step hinv hstuck hstep
    exact ⟨hinv.step hstep, hstuck', hcount'.trans hcount⟩
  exact hkept.2.2

/-- If the socket has an ongoing connect but is not connecting, and no success is to be reported,
then no handshake is started in any run from there, whatever is closed, opened and retried. -/
theorem handshakes_of_stuck (hσ : machine.Reachable σ) (hstuck : Stuck σ.socket)
    (as : List Action) (hrun : machine.run Machine.Always σ as = some τ) :
    τ.handshakes = σ.handshakes :=
  handshakes_of_run (inv_of_reachable hσ) hstuck hrun

/-- The client calls twice. The second attempt is refused, and that is reported before the first is
done. -/
def overlappingCalls : List Action :=
  [.socket (.openSocket 3 (some 0)), .connectToServer ⟨100, 16⟩ ⟨.error EINPROGRESS, 0⟩,
    .connectToServer ⟨100, 16⟩ ⟨.ok 0, 0⟩, .socket (.runJob 0)]

/-- Then the first is done, and the second is retried. -/
def retriedCall : List Action :=
  [.socket (.event Reactor.Events.kWrite ⟨.ok 0, 0⟩ ⟨.ok 0, 0⟩), .retry ⟨100, 16⟩ ⟨.ok 0, 0⟩,
    .socket (.runJob 0)]

/-- The event at which the first attempt is done is ignored, and the retry is refused again. -/
theorem handshakes_of_stuck_overlapping :
    ∃ σ τ : State, machine.Reachable σ ∧ machine.run Machine.Always σ retriedCall = some τ ∧
      σ.connects = 2 ∧ τ.deferred = 1 ∧ τ.handshakes = σ.handshakes := by
  have hσ := Machine.reachableIn_get_run (M := machine) (C := Machine.Always)
    (l := overlappingCalls) (s := {}) rfl (by decide)
  refine ⟨_, _, hσ, (Option.some_get (by decide)).symm, by decide, by decide, ?_⟩
  exact handshakes_of_stuck hσ ⟨by decide, by decide, by decide⟩ retriedCall
    (Option.some_get (by decide)).symm

/-! ## Connects that end -/

/-- The step is made by the connection itself, the kernel or the executor. -/
def isOwn : Action → Bool
  | .connectToServer .. => false
  | .retry .. => true
  | .socket a _ =>
    match a with
    | .event .. | .resume .. | .runJob .. => true
    | .start .. | .openSocket .. | .close .. | .connect .. | .sendSync .. => false

/-- The step is neither a `Close()` nor a `ConnectSync()`. -/
def isUndisturbed : Action → Bool
  | .socket (.close ..) _ | .socket (.connect ..) _ => false
  | .connectToServer .. | .retry .. | .socket _ _ => true

/-- The connection can start a handshake, and nobody else needs to do anything. -/
def ReachesHandshake (σ : State) : Prop :=
  ∃ as τ, (∀ a ∈ as, isOwn a = true) ∧ machine.run Machine.Always σ as = some τ ∧
    σ.handshakes < τ.handshakes

theorem reachesHandshake_of_lt (hstep : σ.step a = some σ') (ha : isOwn a = true)
    (hlt : σ.handshakes < σ'.handshakes) : σ.ReachesHandshake := by
  refine ⟨[a], σ', by simpa using ha, ?_, hlt⟩
  rw [Machine.run, if_pos trivial]
  exact Option.bind_eq_some_iff.mpr ⟨σ', hstep, rfl⟩

theorem ReachesHandshake.of_step (h : σ'.ReachesHandshake) (hstep : σ.step a = some σ')
    (ha : isOwn a = true) (hle : σ.handshakes ≤ σ'.handshakes) : σ.ReachesHandshake := by
  obtain ⟨as, τ, has, hrun, hlt⟩ := h
  refine ⟨a :: as, τ, List.forall_mem_cons.mpr ⟨ha, has⟩, ?_, by omega⟩
  rw [Machine.run, if_pos trivial]
  exact Option.bind_eq_some_iff.mpr ⟨σ', hstep, hrun⟩

theorem settle_runJob (σ : State) (i : ℕ) (job : Job Callback) :
    σ.settle (σ.socket.runJob i job) true =
      { σ with
        socket := σ.socket.runJob i job
        handshakes := σ.handshakes + [(job.callback, job.result)].countP isSuccess
        deferred := σ.deferred + [(job.callback, job.result)].countP isFailure } := by
  have hdrop : (σ.socket.runJob i job).called.drop σ.socket.called.length =
      [(job.callback, job.result)] := List.drop_left
  simp only [settle, hdrop, postDeferred, if_true]

variable {i : ℕ} {job : Job Callback}

theorem step_runJob (hjob : σ.socket.jobs[i]? = some job) :
    σ.step (.socket (.runJob i)) = some (σ.settle (σ.socket.runJob i job) true) := by
  simp [State.step, isConnect, Socket.Async.Action.map, StreamSocket.step, hjob]

/-- A job that reports a success starts the handshake. -/
theorem reachesHandshake_of_job (hjob : σ.socket.jobs[i]? = some job)
    (hsuccess : isSuccess (job.callback, job.result) = true) : σ.ReachesHandshake := by
  refine reachesHandshake_of_lt (step_runJob hjob) rfl ?_
  simp [settle_runJob, hsuccess]

/-- A retry that succeeds at once is reported by a job. Before the first handshake the descriptor is
not connected, so that `connect()` may succeed. -/
theorem reachesHandshake_of_deferred (h : (σ.socket.operation .kConnect).operationOngoing = false)
    (hdeferred : 0 < σ.deferred) : σ.ReachesHandshake := by
  have hstep : σ.step (.retry ⟨100, 16⟩ ⟨.ok 0, 0⟩) =
      some ({ σ with deferred := σ.deferred - 1 }.connectToServer ⟨100, 16⟩ ⟨.ok 0, 0⟩) :=
    if_pos hdeferred
  have hanswered : σ.socket.start (connectAsync ⟨100, 16⟩ ⟨.ok 0, 0⟩) =
      σ.socket.answered (connectAsync ⟨100, 16⟩ ⟨.ok 0, 0⟩) (.ok 0) := by
    simp [StreamSocket.start, StreamSocket.doStart, StreamSocket.answered, connectAsync,
      Start.opType, Start.allowSpeculative, AsyncOperation.performInitiation,
      AsyncOperation.doPerform, AsyncOperation.doConnect, AsyncOperation.setResult, Stored.assign,
      h]
  have hjob : (σ.socket.start (connectAsync ⟨100, 16⟩ ⟨.ok 0, 0⟩)).jobs[σ.socket.jobs.length]? =
      some ⟨.kConnect, some .connectToServer, .ok 0⟩ := by
    rw [hanswered]
    exact List.getElem?_concat_length
  exact ReachesHandshake.of_step (reachesHandshake_of_job hjob (by decide)) hstep rfl le_rfl

/-- A job that reports a failure leaves a retry. -/
theorem reachesHandshake_of_failure (h : (σ.socket.operation .kConnect).operationOngoing = false)
    (hjob : σ.socket.jobs[i]? = some job)
    (hfailure : isFailure (job.callback, job.result) = true) : σ.ReachesHandshake := by
  refine ReachesHandshake.of_step ?_ (step_runJob hjob) rfl ?_
  · rw [settle_runJob]
    exact reachesHandshake_of_deferred h (by simp [hfailure])
  · rw [settle_runJob]
    exact Nat.le_add_right ..

/-- A pending connect starts the handshake at the event at which it is done. -/
theorem reachesHandshake_of_idle (h : Sound σ.socket) (hopen : σ.socket.base.isClosed = false)
    (hphase : σ.socket.phase = .idle)
    (hongoing : (σ.socket.operation .kConnect).operationOngoing = true)
    (hconnecting : σ.socket.streamSockState = .kConnecting) : σ.ReachesHandshake := by
  have hhandle : σ.socket.onReactorEvent .kWrite ⟨.ok 0, 0⟩ ⟨.ok 0, 0⟩ =
      σ.socket.completedBy .kConnect .kWrite (.ok 0) := by
    simp [StreamSocket.onReactorEvent, hopen, hconnecting, StreamSocket.handle,
      StreamSocket.completedBy, AsyncOperation.performContinuation, AsyncOperation.doPerform,
      AsyncOperation.doConnect, isConnectInProgress, AsyncOperation.setResult, Stored.assign,
      ByteStream.EAGAIN, EINPROGRESS]
  have hstep : σ.step (.socket (.event .kWrite ⟨.ok 0, 0⟩ ⟨.ok 0, 0⟩)) =
      some (σ.settle (σ.socket.completedBy .kConnect .kWrite (.ok 0)) true) := by
    simp [State.step, isConnect, Socket.Async.Action.map, StreamSocket.step, hphase, hhandle]
  refine reachesHandshake_of_lt hstep rfl ?_
  simp [settle, StreamSocket.completedBy, h.handler hongoing, isSuccess, isReport]

theorem reachesHandshake_of_connecting (h : Sound σ.socket)
    (hopen : σ.socket.base.isClosed = false)
    (hongoing : (σ.socket.operation .kConnect).operationOngoing = true)
    (hconnecting : σ.socket.streamSockState = .kConnecting) : σ.ReachesHandshake := by
  by_cases hphase : σ.socket.phase = .idle
  · exact reachesHandshake_of_idle h hopen hphase hongoing hconnecting
  · -- a completion handler returns first
    have hresume : σ.socket.resume ⟨.ok 0, 0⟩ = { σ.socket with phase := .idle } := by
      simp only [StreamSocket.resume]
      split
      · simp [StreamSocket.handleWriteEvent, hconnecting]
      · rfl
    have hstep : σ.step (.socket (.resume ⟨.ok 0, 0⟩)) =
        some (σ.settle { σ.socket with phase := .idle } true) := by
      simp [State.step, isConnect, Socket.Async.Action.map, StreamSocket.step, hphase, hresume]
    refine ReachesHandshake.of_step ?_ hstep rfl ?_
    · exact reachesHandshake_of_idle (σ := σ.settle { σ.socket with phase := .idle } true)
        ⟨h.handler, h.others, h.jobs, h.connecting⟩ hopen rfl hongoing hconnecting
    · simp [settle]

end State

end Asrt.ClientServer.Retry
