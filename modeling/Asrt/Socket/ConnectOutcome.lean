import Asrt.Socket.RejectedConnect

/-!
# The outcome of a connect

One call of `ConnectAsync()` on a stream socket is followed to its end. It is complete at once, and
reported by a job, or it stays pending until an event of the reactor at which `SO_ERROR` does not
read as in progress. An `SO_ERROR` other than zero is then reported as the value that `errno` has,
which the successful `getsockopt()` has not set.

The callback of the call is marked: every callback is paired with whether it is the one. Besides the
events and the jobs there may be sends and receives. `Open()`, `Close()` and other connects, with
their jobs, are not part of these runs.

## Main definitions

* `machine`: the socket after the call.
* `Reports`: that the outcome of the connect is reported once, as it is.

## Main results

* `connect_outcome_iff`: when it is.
-/

namespace Asrt.Socket.Async.ConnectOutcome

open RejectedConnect (rejects isAwaited)
open StreamSocket (connectState)

variable {H : Type}

/-- The callback is that of the call. -/
def isMarked (callback : Option (H × Bool)) : Bool := callback.any fun c => c.2

/-- The connect is pending: its operation is ongoing and holds the callback. -/
def isPending (s : StreamSocket (H × Bool)) : Bool :=
  (s.operation .kConnect).operationOngoing &&
    isMarked (s.operation .kConnect).completetionHandler.value

/-- How often the callback was called. -/
def calls (s : StreamSocket (H × Bool)) : ℕ := s.called.countP fun call => isMarked call.1

/-- How many jobs are to call it. -/
def posted (s : StreamSocket (H × Bool)) : ℕ := s.jobs.countP fun job => isMarked job.callback

/-- The step is one of the runs. Of the jobs of connects only that of the call is executed. -/
def isFollowed (s : StreamSocket (H × Bool)) : Action H → Bool
  | .start a => a.function ≠ .connectAsync
  | .runJob i => (s.jobs[i]?).all fun job => isMarked job.callback || job.opType ≠ .kConnect
  | .event .. | .resume .. | .sendSync .. => true
  | .openSocket .. | .close .. | .connect .. => false

/-- The step labelled by an action, if it is enabled. No other callback is marked. -/
def step (s : StreamSocket (H × Bool)) (a : Action H) : Option (StreamSocket (H × Bool)) :=
  if isFollowed s a then s.step (a.map fun callback => (callback, false)) else none

/-- The socket as a machine. It starts with the call. -/
def machine (H : Type) : ToMathlib.Machine (StreamSocket (H × Bool)) (Action H) where
  init _ := True
  step := step

/-- What `connect()` has returned, where the connect is complete at once. -/
def connectOutcome (call : SystemResult) : CompletionResult :=
  match call.result with
  | .ok _ => .ok 0
  | .error errno => .error (.system errno)

/-- The result that an `SO_ERROR` stands for: success, or the error code that it maps to
(`FromErrno()`). -/
def fromSockError (sockError : ℕ) : CompletionResult :=
  if sockError = 0 then .ok 0 else .error (.system sockError)

/-- From `s` to `t` the callback is called with the result, and the socket is connected exactly if
that is a success. -/
structure Completes (s : StreamSocket (H × Bool)) (callback : Option (H × Bool))
    (result : CompletionResult) (t : StreamSocket (H × Bool)) : Prop where
  called : t.called = s.called ++ [(callback, result)]
  connected : t.streamSockState = .kConnected ↔ result = .ok 0

/-- From `s` to `t` the connect that was started with `call` is reported as it ought to be. -/
structure Reports (call : SystemResult) (s : StreamSocket (H × Bool)) (a : Action H)
    (t : StreamSocket (H × Bool)) : Prop where
  /-- The callback was called, or is about to be called by a job, or is held by the operation; and
  only one of these, and only once. -/
  once : calls t + posted t + (if isPending t then 1 else 0) = 1
  /-- The connect stays pending while it is in progress. -/
  awaited : ∀ events first second, a = .event events first second → s.base.isClosed = false →
    isPending s = true → isAwaited first = true →
    isPending t = true ∧ t.called = s.called
  /-- Else `SO_ERROR` decides. -/
  decided : ∀ events first second, a = .event events first second → s.base.isClosed = false →
    isPending s = true → ∀ sockError, first.result = .ok sockError →
    isConnectInProgress sockError = false →
    Completes s (s.operation .kConnect).completetionHandler.value (fromSockError sockError) t
  /-- If it cannot be read, the error of `getsockopt()` is reported. -/
  unread : ∀ events first second, a = .event events first second → s.base.isClosed = false →
    isPending s = true → ∀ errno, first.result = .error errno →
    Completes s (s.operation .kConnect).completetionHandler.value (.error (.system errno)) t
  /-- A connect that is complete at once is reported with what `connect()` has returned. -/
  atOnce : ∀ i job, a = .runJob i → s.jobs[i]? = some job → isMarked job.callback = true →
    Completes s job.callback (connectOutcome call) t

/-- At an event that decides a pending connect, `errno` is the `SO_ERROR` that is reported. -/
def ErrnoIsSockError (s : StreamSocket (H × Bool)) : Action H → Prop
  | .event _ first _ => s.base.isClosed = false → isPending s = true →
      ∀ sockError, first.result = .ok sockError → sockError ≠ 0 →
        isConnectInProgress sockError = false → first.errno = sockError
  | _ => True

/-! ## Where the callback is -/

/-- The operation of the connect will not call the callback. -/
def Quiet (s : StreamSocket (H × Bool)) : Prop :=
  isMarked (s.operation .kConnect).completetionHandler.value = false ∨
    (s.operation .kConnect).operationOngoing = false ∧ s.streamSockState ≠ .kConnecting

/-- The callback is held by the operation of the connect, or by a job, or was called. -/
structure Tracked (call : SystemResult) (s : StreamSocket (H × Bool)) : Prop where
  /-- The other operations do not hold it. -/
  others : ∀ opType ≠ .kConnect, isMarked (s.operation opType).completetionHandler.value = false
  /-- The job that holds it reports what `connect()` has returned. -/
  jobs : ∀ job ∈ s.jobs, isMarked job.callback = true →
    job.opType = .kConnect ∧ job.result = connectOutcome call
  stage : isPending s = true ∧ s.streamSockState = .kConnecting ∧ calls s + posted s = 0 ∨
    Quiet s ∧ calls s + posted s = 1

variable {call : SystemResult} {s t : StreamSocket (H × Bool)}

theorem Quiet.isPending_eq_false (h : Quiet s) : isPending s = false := by
  rcases h with hunmarked | ⟨hdone, -⟩
  · simp [isPending, hunmarked]
  · simp [isPending, hdone]

/-- The callback is in exactly one place. -/
theorem Tracked.once (h : Tracked call s) :
    calls s + posted s + (if isPending s then 1 else 0) = 1 := by
  rcases h.stage with ⟨hpending, -, hcount⟩ | ⟨hquiet, hcount⟩
  · rw [if_pos hpending, hcount]
  · rw [hquiet.isPending_eq_false, hcount]
    rfl

theorem connectState_ne_kConnecting (result : CompletionResult) :
    connectState result ≠ .kConnecting := by
  cases result with
  | ok _ => simp [connectState]
  | error _ => simp [connectState]

theorem isPending_iff : isPending s = true ↔ (s.operation .kConnect).operationOngoing = true ∧
    isMarked (s.operation .kConnect).completetionHandler.value = true := by
  rw [isPending, Bool.and_eq_true]

/-! ## Steps -/

/-- What a step keeps that does not concern the connect: it may add unmarked calls and jobs. -/
theorem Tracked.of_same (h : Tracked call s)
    (hconnect : t.operation .kConnect = s.operation .kConnect)
    (hstate : t.streamSockState = s.streamSockState ∨
      s.streamSockState ≠ .kConnecting ∧ t.streamSockState ≠ .kConnecting)
    (hcalls : calls t = calls s) (hposted : posted t = posted s)
    (hothers : ∀ opType ≠ .kConnect,
      isMarked (t.operation opType).completetionHandler.value = false)
    (hjobs : ∀ job ∈ t.jobs, isMarked job.callback = true → job ∈ s.jobs) : Tracked call t where
  others := hothers
  jobs job hjob hmarked := h.jobs job (hjobs job hjob hmarked) hmarked
  stage := by
    rw [hcalls, hposted]
    rcases h.stage with ⟨hpending, hconnecting, hcount⟩ | ⟨hquiet, hcount⟩
    · refine .inl ⟨by rw [isPending, hconnect]; exact hpending, ?_, hcount⟩
      rcases hstate with heq | ⟨hne, -⟩
      · rw [heq, hconnecting]
      · exact absurd hconnecting hne
    · refine .inr ⟨?_, hcount⟩
      rw [Quiet, hconnect]
      rcases hquiet with hunmarked | ⟨hdone, hne⟩
      · exact .inl hunmarked
      · rcases hstate with heq | ⟨-, hne'⟩
        · exact .inr ⟨hdone, heq ▸ hne⟩
        · exact .inr ⟨hdone, hne'⟩

/-- The handlers of the others after one of their operations was replaced. -/
theorem others_update {opType : OperationType} {op : AsyncOperation (H × Bool)}
    (h : ∀ opType ≠ .kConnect, isMarked (s.operation opType).completetionHandler.value = false)
    (hop : opType ≠ .kConnect → isMarked op.completetionHandler.value = false) :
    ∀ other ≠ .kConnect, isMarked
      (Function.update s.operation opType op other).completetionHandler.value = false := by
  intro other hother
  by_cases heq : other = opType
  · subst heq
    rw [Function.update_self]
    exact hop hother
  · rw [Function.update_of_ne heq]
    exact h other hother

/-- The continuation of the connect. If it is the one that is followed, it stays pending or is
complete. -/
theorem Tracked.handle_connect (h : Tracked call s)
    (hongoing : (s.operation .kConnect).operationOngoing = true ∨
      s.streamSockState = .kConnecting) (events : Reactor.Events) (reading : SystemResult) :
    Tracked call (s.handle .kConnect events reading) := by
  rcases h.stage with ⟨hpending, hconnecting, hcount⟩ | ⟨hquiet, hcount⟩
  · obtain ⟨-, hmarked⟩ := isPending_iff.mp hpending
    rcases s.handle_cases .kConnect events reading with ⟨n, heq⟩ | ⟨result, heq⟩
    · -- the connect is still in progress
      rw [heq]
      refine ⟨others_update h.others (absurd rfl), h.jobs, .inl ⟨?_, hconnecting, hcount⟩⟩
      rw [isPending_iff]
      simpa [StreamSocket.continuedBy, StreamSocket.setOperation, AsyncOperation.onContinuation]
        using hmarked
    · -- the callback is called, and the operation has ended
      rw [heq]
      refine ⟨others_update h.others (absurd rfl), h.jobs, .inr ⟨.inr ⟨?_, ?_⟩, ?_⟩⟩
      · simp [StreamSocket.completedBy, StreamSocket.setOperation]
      · exact connectState_ne_kConnecting result
      · have hcalls : calls (s.completedBy .kConnect events result) = calls s + 1 := by
          simp [calls, StreamSocket.completedBy, hmarked]
        have hposted : posted (s.completedBy .kConnect events result) = posted s := rfl
        omega
  · -- the operation is continued, but it holds the callback of another connect
    have hunmarked : isMarked (s.operation .kConnect).completetionHandler.value = false := by
      rcases hquiet with hunmarked | ⟨hdone, hne⟩
      · exact hunmarked
      · rcases hongoing with hongoing | hconnecting
        · rw [hdone] at hongoing
          cases hongoing
        · exact absurd hconnecting hne
    rcases s.handle_cases .kConnect events reading with ⟨n, heq⟩ | ⟨result, heq⟩
    · rw [heq]
      refine ⟨others_update h.others (absurd rfl), h.jobs, .inr ⟨.inl ?_, hcount⟩⟩
      simpa [StreamSocket.continuedBy, StreamSocket.setOperation, AsyncOperation.onContinuation]
        using hunmarked
    · rw [heq]
      refine ⟨others_update h.others (absurd rfl), h.jobs, .inr ⟨.inl ?_, ?_⟩⟩
      · simpa [StreamSocket.completedBy, StreamSocket.setOperation, AsyncOperation.setResult]
          using hunmarked
      · have hcalls : calls (s.completedBy .kConnect events result) = calls s := by
          simp [calls, StreamSocket.completedBy, hunmarked]
        have hposted : posted (s.completedBy .kConnect events result) = posted s := rfl
        omega

/-- The continuation of a send or a receive. -/
theorem Tracked.handle_of_ne (h : Tracked call s) {opType : OperationType}
    (hne : opType ≠ .kConnect) (events : Reactor.Events) (result : SystemResult) :
    Tracked call (s.handle opType events result) := by
  have hunmarked := h.others opType hne
  rcases s.handle_cases opType events result with ⟨n, heq⟩ | ⟨result, heq⟩
  · rw [heq]
    exact h.of_same (Function.update_of_ne hne.symm ..) (.inl rfl) rfl rfl
      (others_update h.others fun _ => hunmarked) fun _ hjob _ => hjob
  · rw [heq]
    refine h.of_same (Function.update_of_ne hne.symm ..) (.inl (if_neg hne)) ?_ rfl
      (others_update h.others fun _ => hunmarked) fun _ hjob _ => hjob
    simp [calls, StreamSocket.completedBy, hunmarked]

theorem Tracked.handle (h : Tracked call s) {opType : OperationType}
    (hongoing : (s.operation opType).operationOngoing = true ∨
      opType = .kConnect ∧ s.streamSockState = .kConnecting) (events : Reactor.Events)
    (result : SystemResult) : Tracked call (s.handle opType events result) := by
  by_cases hop : opType = .kConnect
  · subst hop
    exact h.handle_connect (hongoing.imp_right And.right) events result
  · exact h.handle_of_ne hop events result

/-- A send or a receive is started, with another callback. -/
theorem Tracked.start (h : Tracked call s) {a : Start (H × Bool)} (ha : a.opType ≠ .kConnect)
    (hunmarked : a.callback.2 = false) : Tracked call (s.start a) := by
  have hcallback : isMarked (some a.callback) = false := hunmarked
  rcases s.start_cases a with ⟨n, heq⟩ | ⟨result, heq⟩
  · rw [heq]
    exact h.of_same (Function.update_of_ne ha.symm ..) (.inl (if_neg ha)) rfl rfl
      (others_update h.others fun _ => hcallback) fun _ hjob _ => hjob
  · -- complete at once: the new job is not the one that is followed
    rw [heq]
    refine h.of_same (Function.update_of_ne ha.symm ..) (.inl rfl) rfl ?_
      (others_update h.others fun _ => h.others a.opType ha) ?_
    · simp [posted, StreamSocket.answered, hcallback]
    · intro job hjob hmarked
      rcases List.mem_append.mp hjob with hjob | hjob
      · exact hjob
      · obtain rfl := List.mem_singleton.mp hjob
        rw [hcallback] at hmarked
        cases hmarked

/-- A job of the runs is executed. -/
theorem Tracked.runJob (h : Tracked call s) {i : ℕ} {job : Job (H × Bool)}
    (hjob : s.jobs[i]? = some job)
    (hfollowed : isMarked job.callback = true ∨ job.opType ≠ .kConnect) :
    Tracked call (s.runJob i job) := by
  have hsubset : ∀ other ∈ s.jobs.eraseIdx i, other ∈ s.jobs :=
    fun _ hother => List.mem_of_mem_eraseIdx hother
  -- the job leaves the list for a call
  have herase := (ToMathlib.cons_eraseIdx_perm hjob).countP_eq fun job => isMarked job.callback
  rw [List.countP_cons] at herase
  cases hmarked : isMarked job.callback with
  | true =>
    obtain ⟨hconnect, -⟩ := h.jobs job (List.mem_of_getElem? hjob) hmarked
    have hcalls : calls (s.runJob i job) = calls s + 1 := by
      simp [calls, StreamSocket.runJob, hmarked]
    have hposted : posted (s.runJob i job) + 1 = posted s := by
      simpa [posted, StreamSocket.runJob, hmarked] using herase
    refine ⟨h.others, fun other hother => h.jobs other (hsubset other hother), .inr ?_⟩
    rcases h.stage with ⟨-, -, hcount⟩ | ⟨hquiet, hcount⟩
    · -- there is no such job while the connect is pending
      omega
    · refine ⟨hquiet.imp_right fun hdone => ⟨hdone.1, ?_⟩, by omega⟩
      have hstate : (s.runJob i job).streamSockState = connectState job.result := if_pos hconnect
      rw [hstate]
      exact connectState_ne_kConnecting _
  | false =>
    have hne : job.opType ≠ .kConnect := hfollowed.resolve_left (by simp [hmarked])
    refine h.of_same rfl (.inl (if_neg hne)) ?_ ?_ h.others fun other hother _ =>
      hsubset other hother
    · simp [calls, StreamSocket.runJob, hmarked]
    · simpa [posted, StreamSocket.runJob, hmarked] using herase

/-- Every step of the runs keeps the callback in its place, or calls it. -/
theorem Tracked.of_step (h : Tracked call s) {a : Action H} (ht : step s a = some t) :
    Tracked call t := by
  simp only [ConnectOutcome.step] at ht
  split at ht
  · rename_i hfollowed
    cases a with
    | start a =>
      obtain rfl := Option.some.inj ht
      refine h.start ?_ rfl
      -- no other connect is started in these runs
      intro hconnect
      simp only [isFollowed, ne_eq, decide_not, Bool.not_eq_true', decide_eq_false_iff_not]
        at hfollowed
      simp only [Start.opType, Start.map] at hconnect
      split at hconnect
      · exact hfollowed (by assumption)
      · cases hconnect
      · cases hconnect
    | event events first second =>
      simp only [Action.map, StreamSocket.step] at ht
      split at ht
      · obtain rfl := Option.some.inj ht
        exact StreamSocket.onReactorEvent_of_handle (R := Tracked call)
          (fun _ h => ⟨h.others, h.jobs, h.stage⟩) (fun _ _ events call h hongoing =>
            h.handle hongoing events call) h events first second
      · cases ht
    | resume result =>
      simp only [Action.map, StreamSocket.step] at ht
      split at ht
      · cases ht
      · obtain rfl := Option.some.inj ht
        exact StreamSocket.resume_of_handle (R := Tracked call)
          (fun _ h => ⟨h.others, h.jobs, h.stage⟩) (fun _ _ events call h hongoing =>
            h.handle hongoing events call) h result
    | runJob i =>
      obtain ⟨job, hjob, rfl⟩ := Option.map_eq_some_iff.mp ht
      refine h.runJob hjob ?_
      simpa [isFollowed, hjob] using hfollowed
    | sendSync notConnected =>
      obtain rfl := Option.some.inj ht
      simp only [StreamSocket.sendSync]
      split
      · -- the send finds out that the socket has lost its connection
        rename_i hconnected
        refine h.of_same rfl (.inr ⟨?_, by simp⟩) rfl rfl h.others fun _ hjob _ => hjob
        rw [hconnected.1]
        simp
      · exact h
    | openSocket | close | connect => cases hfollowed
  · cases ht

/-! ## Reports -/

/-- An event of the open socket continues the pending connect. -/
theorem Tracked.event_eq_handle (h : Tracked call s) {events : Reactor.Events}
    {first second : SystemResult} (ht : step s (.event events first second) = some t)
    (hopen : s.base.isClosed = false) (hpending : isPending s = true) :
    t = s.handle .kConnect events first := by
  have hconnecting : s.streamSockState = .kConnecting := by
    rcases h.stage with ⟨-, hconnecting, -⟩ | ⟨hquiet, -⟩
    · exact hconnecting
    · rw [hquiet.isPending_eq_false] at hpending
      cases hpending
  simp only [ConnectOutcome.step, isFollowed, if_true, Action.map, StreamSocket.step] at ht
  split at ht
  · rw [← Option.some.inj ht, StreamSocket.onReactorEvent, hopen, hconnecting]
    rfl
  · cases ht

/-- An operation that is completed calls its handler, and a connect sets the state. -/
theorem completes_completedBy (s : StreamSocket (H × Bool)) (events : Reactor.Events)
    {result : CompletionResult} (hresult : ∀ n, result = .ok n → n = 0) :
    Completes s (s.operation .kConnect).completetionHandler.value result
      (s.completedBy .kConnect events result) := by
  refine ⟨rfl, ?_⟩
  have hstate : (s.completedBy .kConnect events result).streamSockState = connectState result := rfl
  rw [hstate]
  cases result with
  | ok n => simp [connectState, hresult n rfl]
  | error _ => simp [connectState]

/-- With the next step the connect is reported as it ought to be if and only if `errno` is the error
that is to be reported. -/
theorem reports_iff (h : Tracked call s) {a : Action H} (ht : step s a = some t) :
    Reports call s a t ↔ ErrnoIsSockError s a := by
  constructor
  · intro hreports
    cases a with
    | event events first second =>
      intro hopen hpending sockError hresult hne hended
      have hcalled :=
        (hreports.decided events first second rfl hopen hpending sockError hresult hended).called
      rw [h.event_eq_handle ht hopen hpending,
        RejectedConnect.handle_connect_of_ok hresult hended, if_pos hne] at hcalled
      -- both say what the last call was
      have hlast := List.append_cancel_left hcalled
      simpa [fromSockError, hne] using hlast
    | start | resume | runJob | openSocket | close | connect | sendSync => trivial
  · intro herrno
    refine ⟨(h.of_step ht).once, ?_, ?_, ?_, ?_⟩
    · rintro events first second rfl hopen hpending hawaited
      obtain ⟨-, hmarked⟩ := isPending_iff.mp hpending
      rw [h.event_eq_handle ht hopen hpending, RejectedConnect.handle_connect_of_awaited hawaited]
      refine ⟨?_, rfl⟩
      rw [isPending_iff]
      simpa [StreamSocket.continuedBy, StreamSocket.setOperation, AsyncOperation.onContinuation]
        using hmarked
    · rintro events first second rfl hopen hpending sockError hresult hended
      have heq : (if sockError ≠ 0 then .error (.system first.errno) else .ok 0) =
          fromSockError sockError := by
        by_cases hzero : sockError = 0
        · simp [fromSockError, hzero]
        · have := herrno hopen hpending sockError hresult hzero hended
          simp [fromSockError, hzero, this]
      rw [h.event_eq_handle ht hopen hpending,
        RejectedConnect.handle_connect_of_ok hresult hended, heq]
      refine completes_completedBy s events fun n hn => ?_
      simp only [fromSockError] at hn
      split at hn
      · exact (Except.ok.inj hn).symm
      · cases hn
    · rintro events first second rfl hopen hpending errno hresult
      rw [h.event_eq_handle ht hopen hpending, RejectedConnect.handle_connect_of_error hresult]
      exact completes_completedBy s events (by simp)
    · rintro i job rfl hjob hmarked
      obtain ⟨hconnect, houtcome⟩ := h.jobs job (List.mem_of_getElem? hjob) hmarked
      have hrun : t = s.runJob i job := by
        simp only [ConnectOutcome.step, isFollowed, hjob, Option.all_some, hmarked, Bool.true_or,
          if_true, Action.map, StreamSocket.step, Option.map_some] at ht
        exact (Option.some.inj ht).symm
      rw [hrun]
      refine ⟨by simp only [StreamSocket.runJob, houtcome], ?_⟩
      have hstate : (s.runJob i job).streamSockState = connectState (connectOutcome call) := by
        simp [StreamSocket.runJob, hconnect, houtcome]
      rw [hstate, connectOutcome]
      split
      · simp [connectState]
      · simp [connectState]

/-! ## Runs -/

/-- No callback of the socket is marked. -/
structure Unmarked (s : StreamSocket (H × Bool)) : Prop where
  handlers : ∀ opType, isMarked (s.operation opType).completetionHandler.value = false
  jobs : posted s = 0
  called : calls s = 0

/-- A call that is not rejected is pending, or complete with what `connect()` has returned. -/
theorem start_of_not_rejects {a : Start H} (ha : a.function = .connectAsync)
    (hrejects : rejects s (.start a : Action H) = false) (b : Bool) :
    (∃ n, s.start (a.map fun callback => (callback, b)) =
      s.started (a.map fun callback => (callback, b)) n) ∨
    s.start (a.map fun callback => (callback, b)) =
      s.answered (a.map fun callback => (callback, b)) (connectOutcome a.call) := by
  obtain ⟨function, view, callback, readable, call⟩ := a
  obtain rfl : function = .connectAsync := ha
  -- no connect is pending, so `connect()` is called
  have hongoing : (s.operation .kConnect).operationOngoing = false := by
    cases hongoing : (s.operation .kConnect).operationOngoing with
    | false => rfl
    | true => simp [rejects, hongoing] at hrejects
  rcases hresult : call.result with errno | value
  · cases hbusy : isConnectInProgress errno with
    | true =>
      refine .inl ⟨0, ?_⟩
      simp [StreamSocket.start, StreamSocket.doStart, Start.map, Start.opType,
        Start.allowSpeculative, AsyncOperation.performInitiation, AsyncOperation.doPerform,
        AsyncOperation.doConnect, hongoing, hresult, hbusy, StreamSocket.started]
    | false =>
      refine .inr ?_
      simp [StreamSocket.start, StreamSocket.doStart, Start.map, Start.opType,
        Start.allowSpeculative, AsyncOperation.performInitiation, AsyncOperation.doPerform,
        AsyncOperation.doConnect, AsyncOperation.setResult, Stored.assign, hongoing, hresult,
        hbusy, StreamSocket.answered, connectOutcome]
  · refine .inr ?_
    simp [StreamSocket.start, StreamSocket.doStart, Start.map, Start.opType,
      Start.allowSpeculative, AsyncOperation.performInitiation, AsyncOperation.doPerform,
      AsyncOperation.doConnect, AsyncOperation.setResult, Stored.assign, hongoing, hresult,
      StreamSocket.answered, connectOutcome]

/-- After the call its callback is in one place. -/
theorem Unmarked.tracked_start (h : Unmarked s) {a : Start H} (ha : a.function = .connectAsync)
    (hrejects : rejects s (.start a : Action H) = false) :
    Tracked a.call (s.start (a.map fun callback => (callback, true))) := by
  have hop : (a.map fun callback => (callback, true)).opType = .kConnect := by
    simp [Start.opType, Start.map, ha]
  have hmarked : isMarked (some (a.callback, true)) = true := rfl
  have hcount : calls s + posted s = 0 := by rw [h.called, h.jobs]
  -- no job was marked before the call
  have hjobs : ∀ job ∈ s.jobs, isMarked job.callback = false := by
    have := List.countP_eq_zero.mp h.jobs
    simpa using this
  rcases start_of_not_rejects ha hrejects true with ⟨n, heq⟩ | heq
  · rw [heq]
    refine ⟨others_update (fun opType _ => h.handlers opType) fun hne => absurd hop hne, ?_, ?_⟩
    · intro job hjob hmarked
      rw [hjobs job hjob] at hmarked
      cases hmarked
    · refine .inl ⟨?_, if_pos hop, hcount⟩
      rw [isPending_iff, StreamSocket.started_operation, hop, Function.update_self]
      exact ⟨rfl, hmarked⟩
  · rw [heq]
    refine ⟨others_update (fun opType _ => h.handlers opType) fun _ => h.handlers _, ?_, ?_⟩
    · intro job hjob hmarked
      rcases List.mem_append.mp hjob with hjob | hjob
      · rw [hjobs job hjob] at hmarked
        cases hmarked
      · obtain rfl := List.mem_singleton.mp hjob
        exact ⟨hop, rfl⟩
    · refine .inr ⟨.inl ?_, ?_⟩
      · rw [StreamSocket.answered_operation, hop, Function.update_self]
        exact h.handlers .kConnect
      · have hposted : posted (s.answered (a.map fun callback => (callback, true))
            (connectOutcome a.call)) = posted s + 1 := by
          simp [posted, StreamSocket.answered, Start.map, hmarked]
        have hcalls : calls (s.answered (a.map fun callback => (callback, true))
            (connectOutcome a.call)) = calls s := rfl
        omega

/-- In every run after a `ConnectAsync()` that is not rejected, its callback is called once and with
the outcome of the connect if and only if, whenever a connect has failed, `errno` is the `SO_ERROR`
that was read. -/
theorem connect_outcome_iff (h : Unmarked s) (a : Start H) (ha : a.function = .connectAsync)
    (hrejects : rejects s (.start a : Action H) = false) (as : List (Action H)) :
    (machine H).Along (Reports a.call) (s.start (a.map fun callback => (callback, true))) as ↔
      (machine H).Along (fun s a _ => ErrnoIsSockError s a)
        (s.start (a.map fun callback => (callback, true))) as := by
  refine ToMathlib.Machine.along_iff_of_invariant (h.tracked_start ha hrejects) ?_ ?_
  · intro s a t h ht
    exact reports_iff h ht
  · intro s a t h ht _
    exact h.of_step ht

/-- A socket that has just been opened. -/
def opened : StreamSocket (ℕ × Bool) := StreamSocket.openSocket {} 3 (some 0)

/-- A connect over the network. -/
def networkConnect : Start ℕ := ⟨.connectAsync, ⟨100, 16⟩, 1, false, ⟨.error EINPROGRESS, 0⟩⟩

/-- `ECONNREFUSED` -/
def ECONNREFUSED : ℕ := 111

/-- A connect is refused after a spurious event, when `errno` happens to be the same. -/
theorem connect_outcome_refused :
    (machine ℕ).Along (Reports networkConnect.call)
      (opened.start (networkConnect.map fun callback => (callback, true)))
      [.event .kWrite ⟨.ok EINPROGRESS, 0⟩ ⟨.ok 0, 0⟩,
        .event .kWrite ⟨.ok ECONNREFUSED, ECONNREFUSED⟩ ⟨.ok 0, 0⟩] := by
  refine (connect_outcome_iff ⟨fun _ => rfl, rfl, rfl⟩ networkConnect rfl rfl _).mpr ?_
  intro s hs
  refine ⟨?_, ?_⟩
  · intro _ _ sockError hresult _ hended
    obtain rfl := Except.ok.inj hresult
    cases hended
  · intro t ht
    refine ⟨?_, trivial⟩
    intro _ _ sockError hresult _ _
    exact Except.ok.inj hresult

/-- A connect is refused when `errno` is zero: it is reported as an error that says success. -/
theorem not_connect_outcome :
    ¬ (machine ℕ).Along (Reports networkConnect.call)
      (opened.start (networkConnect.map fun callback => (callback, true)))
      [.event .kWrite ⟨.ok ECONNREFUSED, 0⟩ ⟨.ok 0, 0⟩] := by
  intro h
  have hdecided := (h _ rfl).1.decided .kWrite ⟨.ok ECONNREFUSED, 0⟩ ⟨.ok 0, 0⟩ rfl rfl rfl
    ECONNREFUSED rfl rfl
  have hcalled := hdecided.called
  cases hcalled

end Asrt.Socket.Async.ConnectOutcome
