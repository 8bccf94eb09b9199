import Asrt.Socket.StreamOperations

/-!
# Stream sockets that are opened again

A stream socket may be opened again after `Close()`. The state of the connection is reset by
`OnCloseEvent()`; the resets of the three operations are commented out there, and what the reactor
defers does not reach them. An operation that is ongoing when the socket is closed is ongoing on the
next connection, with its callback and its view.

Every callback is paired here with the life of the socket in which it was given, where each
`Close()` begins a new life.

## Main definitions

* `machine`: a stream socket over its lives.
* `Ends`: what a step keeps apart.

## Main results

* `close_ends_operations_iff`: when the connections are kept apart.
-/

namespace Asrt.Socket.Async.Reopening

/-- A stream socket and its lives. -/
structure State (H : Type) where
  socket : StreamSocket (H × ℕ) := {}
  /-- Ghost: the number of calls of `Close()` on the open socket. -/
  life : ℕ := 0
  /-- Ghost: the life in which the socket was last opened. -/
  connection : ℕ := 0

/-- The step closes the socket, if it is open. -/
def isClose {H : Type} : Action H → Bool
  | .close .. => true
  | _ => false

/-- The step labelled by an action, if it is enabled. -/
def State.step {H : Type} (σ : State H) (a : Action H) : Option (State H) :=
  (σ.socket.step (a.map fun callback => (callback, σ.life))).map fun socket => {
    socket
    -- `Close()` of a closed socket returns at once
    life := if isClose a ∧ !σ.socket.base.isClosed then σ.life + 1 else σ.life
    -- only `Open()` opens a closed socket
    connection :=
      if σ.socket.base.isClosed ∧ !socket.base.isClosed then σ.life else σ.connection }

/-- A stream socket over its lives, as a machine. -/
def machine (H : Type) : ToMathlib.Machine (State H) (Action H) where
  init σ := σ = {}
  step := State.step

section

variable {H : Type} {n life : ℕ} {s t : StreamSocket (H × ℕ)} {a : Action H} {σ τ : State H}

/-- No operation is ongoing. -/
def Idle (s : StreamSocket (H × ℕ)) : Prop :=
  ∀ opType, (s.operation opType).operationOngoing = false

/-- The callback was not given to the socket before life `n`. -/
def Present (n : ℕ) (callback : Option (H × ℕ)) : Prop := ∀ c ∈ callback, n ≤ c.2

/-- From `s` to `t` no operation is continued and no callback called that is older than life `n`. -/
structure Uses (n : ℕ) (s t : StreamSocket (H × ℕ)) : Prop where
  continued : ∃ new, t.continued = s.continued ++ new ∧ ∀ callback ∈ new, Present n callback
  called : ∃ new, t.called = s.called ++ new ∧ ∀ call ∈ new, Present n call.1

/-- The step from `σ` to `τ` keeps the connections of the socket apart. -/
structure Ends (σ : State H) (a : Action H) (τ : State H) : Prop where
  /-- After `Close()` no operation is ongoing. -/
  idle : isClose a = true → σ.socket.base.isClosed = false → Idle τ.socket
  /-- The operation that a start finds ongoing is of the connection. -/
  performed : ∀ start, a = .start start →
    (σ.socket.operation start.opType).operationOngoing = true →
    Present σ.connection (σ.socket.operation start.opType).completetionHandler.value
  /-- What is used is of the connection. -/
  uses : Uses σ.connection σ.socket τ.socket

/-- The socket is closed when no operation is ongoing, and a job runs before the socket is opened
again. -/
def Quiet (σ : State H) : Action H → Prop
  | .close .. => σ.socket.base.isClosed = false → Idle σ.socket
  | .runJob i => ∀ job, σ.socket.jobs[i]? = some job → Present σ.connection job.callback
  | _ => True

/-! ## The operations of a life -/

/-- The ongoing operations were started in the present life, and an awaited connect is ongoing. -/
structure Own (life : ℕ) (s : StreamSocket (H × ℕ)) : Prop where
  ongoing : ∀ opType, (s.operation opType).operationOngoing = true →
    ∃ callback, (s.operation opType).completetionHandler.value = some (callback, life)
  connecting : s.streamSockState = .kConnecting →
    (s.operation .kConnect).operationOngoing = true

/-- Own operations need only the operations and the state. -/
theorem Own.congr (h : Own life s) (hop : t.operation = s.operation)
    (hstate : t.streamSockState = .kConnecting → s.streamSockState = .kConnecting) :
    Own life t := by
  constructor
  · rw [hop]
    exact h.ongoing
  · rw [hop]
    exact fun ht => h.connecting (hstate ht)

/-- A replaced operation is to be of the present life if it is ongoing. -/
theorem Own.setOperation (h : Own life s) {opType : OperationType} {op : AsyncOperation (H × ℕ)}
    (hop : t.operation = Function.update s.operation opType op)
    (hongoing : op.operationOngoing = true →
      ∃ callback, op.completetionHandler.value = some (callback, life))
    (hconnecting : t.streamSockState = .kConnecting → if opType = .kConnect then
      op.operationOngoing = true else s.streamSockState = .kConnecting) : Own life t := by
  constructor
  · intro other
    rw [hop]
    by_cases heq : other = opType
    · subst heq
      rw [Function.update_self]
      exact hongoing
    · rw [Function.update_of_ne heq]
      exact h.ongoing other
  · intro hstate
    have hstate := hconnecting hstate
    rw [hop]
    split at hstate
    · rename_i heq
      subst heq
      rw [Function.update_self]
      exact hstate
    · rename_i hne
      rw [Function.update_of_ne (Ne.symm hne)]
      exact h.connecting hstate

/-- The end of a connect is not awaited. -/
theorem connectState_ne_kConnecting (result : CompletionResult) :
    StreamSocket.connectState result ≠ .kConnecting := by
  cases result with
  | ok _ => simp [StreamSocket.connectState]
  | error _ => simp [StreamSocket.connectState]

theorem Own.start (h : Own life s) {start : Start (H × ℕ)} (hlife : start.callback.2 = life) :
    Own life (s.start start) := by
  rcases s.start_cases start with ⟨k, heq⟩ | ⟨result, heq⟩
  · -- the operation is ongoing now, with the new callback
    rw [heq]
    refine h.setOperation rfl (fun _ => ⟨start.callback.1, ?_⟩) ?_
    · rw [← hlife]
      rfl
    · intro hstate
      split
      · rfl
      · rename_i hne
        simpa only [StreamSocket.started, if_neg hne] using hstate
  · -- the operation keeps its handler, and stays ongoing if it was
    rw [heq]
    refine h.setOperation rfl (h.ongoing start.opType) ?_
    intro hstate
    split
    · rename_i hconnect
      have hongoing := h.connecting hstate
      rw [hconnect]
      exact hongoing
    · exact hstate

/-- An operation that is continued stays of the present life. -/
theorem Own.handle (h : Own life s) {opType : OperationType}
    (hongoing : (s.operation opType).operationOngoing = true) (events : Reactor.Events)
    (call : SystemResult) : Own life (s.handle opType events call) := by
  rcases s.handle_cases opType events call with ⟨k, heq⟩ | ⟨result, heq⟩
  · rw [heq]
    refine h.setOperation rfl (fun _ => h.ongoing opType hongoing) ?_
    intro hstate
    split
    · rfl
    · exact hstate
  · -- the end of a connect leaves `kConnecting`, so no connect is awaited without being ongoing
    rw [heq]
    refine h.setOperation rfl (fun hended => by cases hended) ?_
    intro hstate
    simp only [StreamSocket.completedBy] at hstate
    split
    · rename_i hconnect
      rw [if_pos hconnect] at hstate
      exact absurd hstate (connectState_ne_kConnecting result)
    · rename_i hne
      rwa [if_neg hne] at hstate

theorem Own.runJob (h : Own life s) (i : ℕ) (job : Job (H × ℕ)) : Own life (s.runJob i job) := by
  refine h.congr rfl fun hstate => ?_
  simp only [StreamSocket.runJob] at hstate
  split at hstate
  · exact absurd hstate (connectState_ne_kConnecting job.result)
  · exact hstate

/-- Without an ongoing operation any life will do. -/
theorem Own.of_idle (h : Idle s) (hstate : s.streamSockState ≠ .kConnecting) : Own life s := by
  constructor
  · intro opType hongoing
    rw [h opType] at hongoing
    cases hongoing
  · exact fun hconnecting => absurd hconnecting hstate

/-! ## What is used -/

/-- Without new entries nothing is used. -/
theorem Uses.of_eq (hcontinued : t.continued = s.continued) (hcalled : t.called = s.called) :
    Uses n s t :=
  ⟨⟨[], by simp [hcontinued]⟩, ⟨[], by simp [hcalled]⟩⟩

/-- A callback that was given in the present life is not older than the connection. -/
theorem Present.of_life (hle : n ≤ life) (callback : H) : Present n (some (callback, life)) := by
  intro c hc
  obtain rfl := Option.some.inj hc
  exact hle

/-- A continuation uses the operation that is continued. -/
theorem Uses.handle {u : StreamSocket (H × ℕ)} (h : Uses n u s) {opType : OperationType}
    (hpresent : Present n (s.operation opType).completetionHandler.value)
    (events : Reactor.Events) (call : SystemResult) : Uses n u (s.handle opType events call) := by
  obtain ⟨⟨continued, hcontinued, hnew⟩, ⟨called, hcalled, hnewCalls⟩⟩ := h
  have hmore : ∀ callback ∈ continued ++ [(s.operation opType).completetionHandler.value],
      Present n callback := by
    intro callback hmem
    rcases List.mem_append.mp hmem with hmem | hmem
    · exact hnew callback hmem
    · obtain rfl := List.mem_singleton.mp hmem
      exact hpresent
  rcases s.handle_cases opType events call with ⟨k, heq⟩ | ⟨result, heq⟩
  · rw [heq]
    exact ⟨⟨_, by simp [StreamSocket.continuedBy, hcontinued], hmore⟩,
      ⟨called, hcalled, hnewCalls⟩⟩
  · rw [heq]
    refine ⟨⟨_, by simp [StreamSocket.completedBy, hcontinued], hmore⟩,
      ⟨called ++ [((s.operation opType).completetionHandler.value, result)], ?_, ?_⟩⟩
    · simp [StreamSocket.completedBy, hcalled]
    · intro c hmem
      rcases List.mem_append.mp hmem with hmem | hmem
      · exact hnewCalls c hmem
      · obtain rfl := List.mem_singleton.mp hmem
        exact hpresent

/-- A job calls its callback. -/
theorem uses_runJob_iff (s : StreamSocket (H × ℕ)) (i : ℕ) (job : Job (H × ℕ)) :
    Uses n s (s.runJob i job) ↔ Present n job.callback := by
  constructor
  · -- the job's callback is all that is new
    rintro ⟨-, ⟨new, heq, hnew⟩⟩
    obtain rfl : [(job.callback, job.result)] = new := List.append_cancel_left heq
    exact hnew _ (List.mem_singleton_self _)
  · intro hpresent
    refine ⟨⟨[], by simp [StreamSocket.runJob]⟩, ⟨_, rfl, ?_⟩⟩
    intro c hmem
    obtain rfl := List.mem_singleton.mp hmem
    exact hpresent

/-! ## Runs -/

/-- What a run keeps as long as the connections are kept apart. -/
structure Separate (σ : State H) : Prop where
  connection_le : σ.connection ≤ σ.life
  own : Own σ.life σ.socket

/-- The ongoing operations are of the connection. -/
theorem Separate.present (h : Separate σ) {opType : OperationType}
    (hongoing : (σ.socket.operation opType).operationOngoing = true) :
    Present σ.connection (σ.socket.operation opType).completetionHandler.value := by
  obtain ⟨callback, heq⟩ := h.own.ongoing opType hongoing
  rw [heq]
  exact Present.of_life h.connection_le callback

/-- An event uses operations of the connection, and keeps them of the present life. -/
theorem Separate.handle (h : Separate σ) (s : StreamSocket (H × ℕ)) (opType : OperationType)
    (events : Reactor.Events) (call : SystemResult)
    (hs : Own σ.life s ∧ Uses σ.connection σ.socket s)
    (hongoing : (s.operation opType).operationOngoing = true ∨
      opType = .kConnect ∧ s.streamSockState = .kConnecting) :
    Own σ.life (s.handle opType events call) ∧
      Uses σ.connection σ.socket (s.handle opType events call) := by
  -- `HandleConnectionEstablishment()` does not ask whether the connect is ongoing
  have hongoing : (s.operation opType).operationOngoing = true := by
    rcases hongoing with hongoing | ⟨rfl, hstate⟩
    · exact hongoing
    · exact hs.1.connecting hstate
  refine ⟨hs.1.handle hongoing events call, hs.2.handle ?_ events call⟩
  obtain ⟨callback, heq⟩ := hs.1.ongoing opType hongoing
  rw [heq]
  exact Present.of_life h.connection_le callback

/-- `Close()` leaves the operations as they are and uses none of them. -/
theorem close_spec (s : StreamSocket (H × ℕ)) (deregistered inUse : Bool) :
    (s.close deregistered inUse).operation = s.operation ∧
      Uses n s (s.close deregistered inUse) := by
  rcases s.close_cases deregistered inUse with ⟨-, heq⟩ | ⟨-, base, heq⟩
  · rw [heq]
    exact ⟨rfl, .of_eq rfl rfl⟩
  · rw [heq]
    exact ⟨rfl, .of_eq rfl rfl⟩

/-- A step other than `Close()` keeps the operations of the present life, and what it uses is of the
connection if that is so of a job that runs. -/
theorem Separate.step (h : Separate σ) (hclose : isClose a = false) (hquiet : Quiet σ a)
    (ht : σ.socket.step (a.map fun callback => (callback, σ.life)) = some t) :
    Own σ.life t ∧ Uses σ.connection σ.socket t := by
  have hrefl : Own σ.life σ.socket ∧ Uses σ.connection σ.socket σ.socket :=
    ⟨h.own, .of_eq rfl rfl⟩
  -- an event may continue two operations, so both facts are carried through it together
  have hidle : ∀ s, Own σ.life s ∧ Uses σ.connection σ.socket s →
      Own σ.life { s with phase := .idle } ∧
        Uses σ.connection σ.socket { s with phase := .idle } :=
    fun s hs => ⟨hs.1.congr rfl id, hs.2.continued, hs.2.called⟩
  cases a with
  | start start =>
    obtain rfl := Option.some.inj ht
    refine ⟨h.own.start rfl, ?_⟩
    rcases σ.socket.start_cases (start.map fun callback => (callback, σ.life)) with
      ⟨k, heq⟩ | ⟨result, heq⟩
    · rw [heq]
      exact .of_eq rfl rfl
    · rw [heq]
      exact .of_eq rfl rfl
  | event events first second =>
    simp only [Action.map, StreamSocket.step] at ht
    split at ht
    · obtain rfl := Option.some.inj ht
      exact StreamSocket.onReactorEvent_of_handle hidle h.handle hrefl events first second
    · cases ht
  | resume call =>
    simp only [Action.map, StreamSocket.step] at ht
    split at ht
    · cases ht
    · obtain rfl := Option.some.inj ht
      exact StreamSocket.resume_of_handle hidle h.handle hrefl call
  | runJob i =>
    obtain ⟨job, hjob, rfl⟩ := Option.map_eq_some_iff.mp ht
    exact ⟨h.own.runJob i job, (uses_runJob_iff σ.socket i job).mpr (hquiet job hjob)⟩
  | openSocket fd registered =>
    obtain rfl := Option.some.inj ht
    obtain ⟨base, heq⟩ := σ.socket.openSocket_cases fd registered
    rw [heq]
    exact ⟨h.own.congr rfl id, .of_eq rfl rfl⟩
  | close deregistered inUse => cases hclose
  | connect ok =>
    obtain rfl := Option.some.inj ht
    rcases σ.socket.connect_cases ok with heq | heq
    · rw [heq]
      exact hrefl
    · rw [heq]
      exact ⟨h.own.congr rfl (by simp), .of_eq rfl rfl⟩
  | sendSync notConnected =>
    obtain rfl := Option.some.inj ht
    rcases σ.socket.sendSync_cases notConnected with heq | heq
    · rw [heq]
      exact hrefl
    · rw [heq]
      exact ⟨h.own.congr rfl (by simp), .of_eq rfl rfl⟩

/-- The parts of a step. -/
theorem step_cases (ht : σ.step a = some τ) :
    σ.socket.step (a.map fun callback => (callback, σ.life)) = some τ.socket ∧
      τ.life = (if isClose a ∧ !σ.socket.base.isClosed then σ.life + 1 else σ.life) ∧
      (τ.connection = σ.life ∨ τ.connection = σ.connection) := by
  obtain ⟨socket, hsocket, rfl⟩ := Option.map_eq_some_iff.mp ht
  refine ⟨hsocket, rfl, ?_⟩
  simp only
  split
  · exact .inl rfl
  · exact .inr rfl

/-- Along a run that keeps the connections apart, a step keeps them apart if and only if it is
quiet. -/
theorem ends_iff_quiet (h : Separate σ) (ht : σ.step a = some τ) : Ends σ a τ ↔ Quiet σ a := by
  obtain ⟨hsocket, -, -⟩ := step_cases ht
  constructor
  · intro hends
    cases a with
    | close deregistered inUse =>
      -- `Close()` ends no operation, so none can have been ongoing before
      intro hopen
      have hidle := hends.idle rfl hopen
      rwa [Idle, ← Option.some.inj hsocket, (close_spec (n := 0) ..).1] at hidle
    | runJob i =>
      intro job hjob
      obtain ⟨found, hfound, heq⟩ := Option.map_eq_some_iff.mp hsocket
      obtain rfl : found = job := Option.some.inj (hfound.symm.trans hjob)
      have huses := hends.uses
      rw [← heq] at huses
      exact (uses_runJob_iff σ.socket i found).mp huses
    | start | event | resume | openSocket | connect | sendSync => trivial
  · intro hquiet
    refine ⟨?_, fun start _ hongoing => h.present hongoing, ?_⟩
    · intro hclose hopen
      cases a with
      | close deregistered inUse =>
        rw [Idle, ← Option.some.inj hsocket, (close_spec (n := 0) ..).1]
        exact hquiet hopen
      | start | event | resume | runJob | openSocket | connect | sendSync => cases hclose
    · by_cases hclose : isClose a = true
      · cases a with
        | close deregistered inUse =>
          rw [← Option.some.inj hsocket]
          exact (close_spec ..).2
        | start | event | resume | runJob | openSocket | connect | sendSync => cases hclose
      · exact (h.step (Bool.eq_false_iff.mpr hclose) hquiet hsocket).2

/-- A quiet step keeps what a run keeps. -/
theorem Separate.of_quiet (h : Separate σ) (ht : σ.step a = some τ) (hquiet : Quiet σ a) :
    Separate τ := by
  obtain ⟨hsocket, hlife, hconnection⟩ := step_cases ht
  have hle : σ.life ≤ τ.life := by
    rw [hlife]
    split
    · exact Nat.le_succ _
    · exact le_rfl
  constructor
  · rcases hconnection with heq | heq
    · rw [heq]
      exact hle
    · rw [heq]
      exact h.connection_le.trans hle
  · by_cases hclose : isClose a = true
    · cases a with
      | close deregistered inUse =>
        have hclosed := Option.some.inj hsocket
        rcases σ.socket.close_cases deregistered inUse with ⟨hopen, heq⟩ | ⟨hopen, base, heq⟩
        · -- the socket was closed already, and the life goes on
          rw [hlife, ← hclosed, hopen, heq]
          exact h.own
        · -- a new life begins without an operation
          rw [← hclosed, heq]
          exact Own.of_idle (hquiet hopen) (by simp)
      | start | event | resume | runJob | openSocket | connect | sendSync => cases hclose
    · rw [hlife, if_neg fun hboth => hclose hboth.1]
      exact (h.step (Bool.eq_false_iff.mpr hclose) hquiet hsocket).1

/-- In every run of a stream socket, `Close()` ends all operations, and a connection uses no
callback and no view of an earlier one, if and only if `Close()` is only called when no operation is
ongoing and the jobs of a connection run before the socket is opened again. -/
theorem close_ends_operations_iff (as : List (Action H)) :
    (machine H).Along Ends {} as ↔ (machine H).Along (fun σ a _ => Quiet σ a) {} as := by
  have hinit : Separate ({} : State H) :=
    ⟨le_rfl, Own.of_idle (fun _ => rfl) (by simp)⟩
  refine ToMathlib.Machine.along_iff_of_invariant hinit ?_ ?_
  · intro σ a τ h ht
    exact ends_iff_quiet h ht
  · intro σ a τ h ht hends
    exact h.of_quiet ht ((ends_iff_quiet h ht).mp hends)

/-- A receive is pending on a connection when the socket is closed. -/
theorem not_close_ends_receive :
    ¬ (machine ℕ).Along Ends {} [.openSocket 3 (some 0), .connect true,
      .start ⟨.receive .receiveAsync, ⟨100, 8⟩, 1, false, ⟨.ok 0, 0⟩⟩, .close true false] := by
  intro h
  have hconnected := (h _ rfl).2
  have hpending := (hconnected _ rfl).2
  have hclosed := (hpending _ rfl).2
  -- the reactor has deregistered the socket, which is not in use
  have hidle := (hclosed _ rfl).1.idle rfl rfl .kReceive
  cases hidle

end

end Asrt.Socket.Async.Reopening
