import Asrt.Executor.Basic

/-!
# The executor with a reactor service and sleeping workers

`IO_Executor` as its workers sleep and are woken (`io_executor.ipp`, `io_executor.hpp`,
`epoll_reactor.hpp`): the condition variable `cv_`, the reactor service with its unblock eventfd,
and the null operation in `operation_queue_` that stands for the reactor's turn.

The module introduces:

* `ExecutorOperation`: a job, or the null operation that marks the reactor's turn.
* `Phase`: where a thread stands. A thread in `cv_.wait()` carries whether a notification of it is
  pending, a thread in the reactor's `Run()` whether it passed the timeout `0` or `-1`.
* `State.wakeOne`, `State.wakeAll`: the two wake-ups. `notify_one()` unblocks any thread that is
  blocked; which one is an argument.
* `State.step`: the steps of the threads, and `State.Transition`, what each of them does.

A step is one critical section of `mtx_`, one atomic access to `job_count_` or one call of the
reactor's `Run()`, together with the thread-local code around it. `Stop()` sets `stop_requested_`
and calls `WakeAll()` in one critical section, a post enqueues and calls `WakeOne()` in one critical
section, and so no thread is seen between the two. `UseReactorService()` pushes the null operation
without taking the mutex, against the note of `StartReactorTask()` that the lock is held; the model
has the push and its `WakeOne()` as one step.

The result of the reactor's `Run()` is an argument: any list of operations with or without the read
of the eventfd, or an error. A thread identifier stands for one call of `Run()` or `RunOne()` at a
time; a job that calls one of them is a second identifier. The destructors of what a closure has
captured call nothing here; `Asrt.Executor.Basic` has the step in which an operation is destroyed.
-/

namespace Asrt.WorkerPool

open Executor (OpId RunMode ThreadInfo fetchAdd fetchSub)

/-- `ExecutorOperation`, an `asrt::UniqueFunction<void()>`. The null one is the reactor's turn. -/
inductive ExecutorOperation
  | null
  | job (op : OpId)
deriving DecidableEq, Repr

/-- Where a thread stands. Code of the user runs in `client` and in `running`. -/
inductive Phase
  /-- Outside of `Run()` and `RunOne()`. -/
  | client
  /-- Outside, between `OnJobArrival()` and the critical section of a post. -/
  | posting (op : OpId)
  /-- At the head of the loop of `ProcessNextOperation()`. -/
  | processing (mode : RunMode)
  /-- In `cv_.wait()`. -/
  | waiting (mode : RunMode) (notified : Bool)
  /-- In the reactor's `Run()`, with the timeout `0` if there were pending jobs and `-1` if not. -/
  | inReactor (mode : RunMode) (hasPendingJobs : Bool)
  /-- The reactor's `Run()` returned without an error; the mutex is not yet taken again. -/
  | reactorReturned (mode : RunMode)
  /-- Executing an operation, with the mutex released. -/
  | running (mode : RunMode) (op : OpId)
  /-- The operation returned and its counters are folded; the mutex is not yet taken again. -/
  | accounted (mode : RunMode)
deriving DecidableEq, Repr

namespace Phase

/-- The thread is inside `Run()` or `RunOne()`. -/
def isWorker : Phase → Bool
  | client | posting _ => false
  | _ => true

/-- The thread is in `cv_.wait()`. -/
def isWaiting : Phase → Bool
  | waiting _ _ => true
  | _ => false

/-- The thread is in `cv_.wait()` and no notification of it is pending. -/
def isUnnotified : Phase → Bool
  | waiting _ false => true
  | _ => false

/-- The thread is in the branch of `ProcessNextOperation()` that took the null operation. -/
def isInReactorBranch : Phase → Bool
  | inReactor _ _ | reactorReturned _ => true
  | _ => false

/-- User code runs in this phase and may call the executor. -/
def isUserCode : Phase → Bool
  | client | running _ _ => true
  | _ => false

/-- What a notification does to a thread. -/
def notify : Phase → Phase
  | waiting mode _ => waiting mode true
  | ph => ph

@[simp] theorem isWorker_notify (ph : Phase) : ph.notify.isWorker = ph.isWorker := by
  cases ph <;> rfl

@[simp] theorem isWaiting_notify (ph : Phase) : ph.notify.isWaiting = ph.isWaiting := by
  cases ph <;> rfl

@[simp] theorem isInReactorBranch_notify (ph : Phase) :
    ph.notify.isInReactorBranch = ph.isInReactorBranch := by
  cases ph <;> rfl

@[simp] theorem isUnnotified_notify (ph : Phase) : ph.notify.isUnnotified = false := by
  cases ph <;> rfl

/-- Only a thread in the wait is notified. -/
theorem notify_of_not_waiting {ph : Phase} (h : ph.isWaiting = false) : ph.notify = ph := by
  cases ph with
  | waiting _ _ => cases h
  | _ => rfl

end Phase

/-- A thread: its phase, its `ThreadInfo`, and whether it is inside a call of `Stop()` that the
executor itself made and that has not taken the mutex yet. -/
structure Thread where
  phase : Phase := .client
  info : ThreadInfo := {}
  stopPending : Bool := false
deriving DecidableEq, Repr

/-- What a notification does to a thread. -/
def Thread.notify (th : Thread) : Thread := { th with phase := th.phase.notify }

/-- The shared members of the executor, the counter of the reactor's eventfd and the threads. -/
structure State (T : Type) where
  /-- `single_thread_`, fixed by the constructor. -/
  singleThread : Bool := true
  /-- `reactor_service_.has_value()` -/
  hasReactorService : Bool := false
  /-- `stop_requested_` -/
  stopRequested : Bool := false
  /-- `operation_queue_` -/
  operationQueue : List ExecutorOperation := []
  /-- `job_count_` -/
  jobCount : ℕ := 0
  /-- `cv_wait_count_` -/
  cvWaitCount : ℕ := 0
  /-- `reactor_needs_interrupt_` -/
  reactorNeedsInterrupt : Bool := false
  /-- The counter of `unblock_fd_`. -/
  unblockCounter : ℕ := 0
  threads : T → Thread := fun _ => {}

/-- The steps of a thread `t`. Where the code calls `WakeOne()`, `u` is the thread that
`notify_one()` unblocks. -/
inductive Action (T : Type)
  /-- Call `Run()` or `RunOne()`. -/
  | enter (t : T) (mode : RunMode)
  /-- One iteration of the loop of `ProcessNextOperation()`, up to the unlock or the wait. -/
  | processNext (t u : T)
  /-- A notified thread takes the mutex again and evaluates the predicate of the wait. -/
  | wake (t : T)
  /-- `cv_.wait()` unblocks spuriously. -/
  | spuriousWake (t : T)
  /-- The reactor's `Run()` returns, with the operations it pushed and whether it handled the
  unblock event. -/
  | reactorReturn (t : T) (ops : List OpId) (unblocked : Bool)
  /-- The reactor's `Run()` returns an error. -/
  | reactorError (t : T)
  /-- After the reactor's `Run()`, take the mutex again and push the null operation. -/
  | reactorRelock (t : T)
  /-- Call `Post()`. -/
  | post (t : T) (op : OpId)
  /-- Call `Dispatch()`. -/
  | dispatch (t : T) (op : OpId)
  /-- The critical section of a post made outside the executor. -/
  | push (t u : T)
  /-- Call `EnqueuePostJobArrival()`. -/
  | enqueuePostJobArrival (t : T) (op : OpId) (u : T)
  /-- The operation returns and the private counter is folded into `job_count_`. -/
  | account (t : T)
  /-- Take the mutex again and move the private queue to the shared one. -/
  | relock (t : T)
  /-- Call `OnJobArrival()`. -/
  | onJobArrival (t : T)
  /-- Call `OnJobCompletion()`. -/
  | onJobCompletion (t : T)
  /-- The critical section of a `Stop()` made by the executor. -/
  | finishStop (t : T)
  /-- The user calls `Stop()`. -/
  | stop (t : T)
  /-- The user calls `Restart()`. -/
  | restart (t : T)
  /-- Call `UseReactorService()`. -/
  | useReactorService (t u : T)
deriving DecidableEq, Repr

/-- The thread that takes a step. -/
def Action.thread {T : Type} : Action T → T
  | .enter t _ | .processNext t _ | .wake t | .spuriousWake t | .reactorReturn t _ _
  | .reactorError t | .reactorRelock t | .post t _ | .dispatch t _ | .push t _
  | .enqueuePostJobArrival t _ _ | .account t | .relock t | .onJobArrival t | .onJobCompletion t
  | .finishStop t | .stop t | .restart t | .useReactorService t _ => t

namespace State

variable {T : Type} [Fintype T] [DecidableEq T]

/-- Replace the state of one thread. -/
def setThread (s : State T) (t : T) (th : Thread) : State T :=
  { s with threads := Function.update s.threads t th }

/-- Move one thread to another phase. -/
def setPhase (s : State T) (t : T) (ph : Phase) : State T :=
  s.setThread t { s.threads t with phase := ph }

omit [Fintype T] in
@[simp] theorem setThread_threads_self (s : State T) (t : T) (th : Thread) :
    (s.setThread t th).threads t = th := Function.update_self _ _ _

omit [Fintype T] in
@[simp] theorem setPhase_phase_self (s : State T) (t : T) (ph : Phase) :
    ((s.setPhase t ph).threads t).phase = ph := by
  simp [setPhase]

omit [Fintype T] in
/-- The other threads are left alone. -/
theorem setThread_threads_of_ne (s : State T) {t v : T} (hv : v ≠ t) (th : Thread) :
    (s.setThread t th).threads v = s.threads v := Function.update_of_ne hv _ _

omit [Fintype T] in
/-- The other threads are left alone. -/
theorem setPhase_threads_of_ne (s : State T) {t v : T} (hv : v ≠ t) (ph : Phase) :
    (s.setPhase t ph).threads v = s.threads v := Function.update_of_ne hv _ _

/-! ## Wake-ups -/

/-- `UnblockImpl()`: write `1` to the eventfd. A write that would overflow the counter fails with
`try_again`, which is ignored. -/
def wakeup (s : State T) : State T :=
  { s with unblockCounter := if s.unblockCounter < 2 ^ 64 - 2 then s.unblockCounter + 1
      else s.unblockCounter }

/-- `cv_.notify_one()`: unblock the blocked thread `u`. Without a blocked thread it does nothing. -/
def notifyOne (s : State T) (u : T) : Option (State T) :=
  if (s.threads u).phase.isUnnotified then some (s.setThread u (s.threads u).notify)
  else if ∃ v, (s.threads v).phase.isUnnotified then none
  else some s

/-- `WakeOne()` -/
def wakeOne (s : State T) (u : T) : Option (State T) :=
  if s.cvWaitCount ≠ 0 then s.notifyOne u
  else if s.hasReactorService && s.reactorNeedsInterrupt then some s.wakeup
  else some s

/-- `WakeAll()` -/
def wakeAll (s : State T) : State T :=
  let s' := { s with threads := fun u => (s.threads u).notify }
  if s'.hasReactorService && s'.reactorNeedsInterrupt then s'.wakeup else s'

/-- Wake another worker for the rest of the queue, unless the executor is meant for one thread. -/
def wakeForPending (s : State T) (u : T) : Option (State T) :=
  if s.singleThread = false ∧ s.operationQueue ≠ [] then s.wakeOne u else some s

/-! ## Jobs -/

/-- `OnJobArrival()` -/
def onJobArrival (s : State T) : State T := { s with jobCount := fetchAdd s.jobCount 1 }

/-- `OnJobCompletion()`: the value before the `fetch_sub` is compared with zero, and thread `t` goes
on to call `Stop()` if it was. -/
def onJobCompletion (s : State T) (t : T) : State T :=
  let old := s.jobCount
  let s := { s with jobCount := fetchSub s.jobCount 1 }
  if old = 0 then s.setThread t { s.threads t with stopPending := true } else s

/-- Push an operation and call `WakeOne()`. -/
def enqueue (s : State T) (op : ExecutorOperation) (u : T) : Option (State T) :=
  { s with operationQueue := s.operationQueue ++ [op] }.wakeOne u

/-- Push an operation to the private queue of the thread, with or without counting it as a job. -/
def enqueuePrivate (s : State T) (t : T) (op : OpId) (jobs : ℕ) : State T :=
  let th := s.threads t
  s.setThread t
    { th with info :=
      { privateOpQueue := th.info.privateOpQueue ++ [op]
        privateJobCount := fetchAdd th.info.privateJobCount jobs } }

/-- `EnqueuePostJobArrival()` inside the executor: only an executor meant for one thread uses the
private queue. -/
def enqueuePostJobArrivalInside (s : State T) (t : T) (op : OpId) (u : T) : Option (State T) :=
  if s.singleThread then some (s.enqueuePrivate t op 0) else s.enqueue (.job op) u

/-- `StartReactorTask()` -/
def startReactorTask (s : State T) (u : T) : Option (State T) :=
  if s.stopRequested then some s else s.enqueue .null u

/-- `UseReactorService()` of the only executor of a process: the first call constructs the reactor
and starts its task. -/
def useReactorService (s : State T) (u : T) : Option (State T) :=
  if s.hasReactorService then some s else { s with hasReactorService := true }.startReactorTask u

/-! ## The loop of a worker -/

/-- The entry of `Run()` and `RunOne()`: without jobs the executor is stopped, otherwise a fresh
`ThreadInfo` becomes the thread's context. -/
def enter (s : State T) (t : T) (mode : RunMode) : State T :=
  if s.jobCount = 0 then s.setThread t { s.threads t with stopPending := true }
  else s.setThread t { phase := .processing mode }

/-- One iteration of `ProcessNextOperation()`. `RunOne()` looks at the queue first and returns if
it is empty, so only `Run()` reaches the wait. -/
def processNext (s : State T) (t : T) (mode : RunMode) (u : T) : Option (State T) :=
  if mode = .runOne ∧ s.operationQueue = [] then some (s.setPhase t .client)
  else if s.stopRequested then some (s.setPhase t .client)
  else
    match s.operationQueue with
    | .null :: rest =>
      ({ s with operationQueue := rest }.wakeForPending u).map fun s' : State T =>
        { s' with reactorNeedsInterrupt := rest.isEmpty }.setPhase t
          (.inReactor mode (!rest.isEmpty))
    | .job op :: rest =>
      ({ s with operationQueue := rest }.wakeForPending u).map fun s' : State T =>
        s'.setPhase t (.running mode op)
    | [] => some ({ s with cvWaitCount := s.cvWaitCount + 1 }.setPhase t (.waiting mode false))

/-- The predicate of the wait, a non-empty queue, is evaluated: the wait returns or goes on. The
flag `stop_requested_` is not part of it. -/
def wake (s : State T) (t : T) (mode : RunMode) : State T :=
  if s.operationQueue = [] then s.setPhase t (.waiting mode false)
  else { s with cvWaitCount := s.cvWaitCount - 1 }.setPhase t (.processing mode)

/-- The reactor's `Run()` returns without an error and the private counter is folded. The unblock
event is handled only if the eventfd was written, and its read resets the counter. -/
def reactorReturn (s : State T) (t : T) (mode : RunMode) (ops : List OpId) (unblocked : Bool) :
    Option (State T) :=
  if unblocked = true ∧ s.unblockCounter = 0 then none
  else
    let info := (s.threads t).info
    some ({ s with
      unblockCounter := if unblocked then 0 else s.unblockCounter
      jobCount := fetchAdd s.jobCount info.privateJobCount }.setThread t
        { s.threads t with
          phase := .reactorReturned mode
          info := { privateOpQueue := info.privateOpQueue ++ ops, privateJobCount := 0 } })

/-- The reactor's `Run()` returns an error: `ProcessNextOperation()` and then `Run()` or `RunOne()`
return it at once. The mutex is not taken again, the null operation is not pushed and the private
queue is destroyed. -/
def reactorError (s : State T) (t : T) : State T :=
  s.setThread t { s.threads t with phase := .client, info := {} }

/-- After the reactor's `Run()` the private queue moves to the shared one and the null operation is
pushed behind it. -/
def reactorRelock (s : State T) (t : T) (mode : RunMode) : State T :=
  let th := s.threads t
  { s with
    operationQueue := s.operationQueue ++
      (th.info.privateOpQueue.map ExecutorOperation.job ++ [ExecutorOperation.null])
    reactorNeedsInterrupt := false }.setThread t
      { th with phase := .processing mode, info := { th.info with privateOpQueue := [] } }

/-- The fold of `private_job_count_` after an operation has returned. -/
def account (s : State T) (t : T) (mode : RunMode) : State T :=
  let info := (s.threads t).info
  let s' :=
    if 1 < info.privateJobCount then
      { s with jobCount := fetchAdd s.jobCount (info.privateJobCount - 1) }
    else if info.privateJobCount = 0 then s.onJobCompletion t
    else s
  s'.setThread t
    { s'.threads t with phase := .accounted mode, info := { info with privateJobCount := 0 } }

/-- The private queue moves to the back of the shared one; `Run()` goes on with the next operation
and `RunOne()` returns. -/
def relock (s : State T) (t : T) (mode : RunMode) : State T :=
  let th := s.threads t
  { s with
    operationQueue := s.operationQueue ++ th.info.privateOpQueue.map ExecutorOperation.job
  }.setThread t
    { th with
      phase := match mode with | .run => .processing .run | .runOne => .client
      info := { th.info with privateOpQueue := [] } }

/-- The critical section of `Stop()`. -/
def stop (s : State T) : State T := { s with stopRequested := true }.wakeAll

/-- The critical section of a `Stop()` made by the executor. -/
def finishStop (s : State T) (t : T) : State T :=
  let s := s.stop
  s.setThread t { s.threads t with stopPending := false }

/-- The step labelled by an action, if it is enabled. A thread inside `Stop()` does nothing else. -/
def step (s : State T) (a : Action T) : Option (State T) :=
  if (s.threads a.thread).stopPending then
    match a with
    | .finishStop t => some (s.finishStop t)
    | _ => none
  else
    match a, (s.threads a.thread).phase with
    | .enter t mode, .client => some (s.enter t mode)
    | .processNext t u, .processing mode => s.processNext t mode u
    | .wake t, .waiting mode true => some (s.wake t mode)
    | .spuriousWake t, .waiting mode false => some (s.setPhase t (.waiting mode true))
    | .reactorReturn t ops unblocked, .inReactor mode _ => s.reactorReturn t mode ops unblocked
    | .reactorError t, .inReactor _ _ => some (s.reactorError t)
    | .reactorRelock t, .reactorReturned mode => some (s.reactorRelock t mode)
    | .post t op, .client => some (s.onJobArrival.setPhase t (.posting op))
    | .post t op, .running _ _ => some (s.enqueuePrivate t op 1)
    | .dispatch t op, .client => some (s.onJobArrival.setPhase t (.posting op))
    -- inside the executor the operation is invoked inline, as part of the running one
    | .dispatch _ _, .running _ _ => some s
    | .push t u, .posting op => (s.setPhase t .client).enqueue (.job op) u
    | .enqueuePostJobArrival _ op u, .client => s.enqueue (.job op) u
    | .enqueuePostJobArrival t op u, .running _ _ => s.enqueuePostJobArrivalInside t op u
    | .account t, .running mode _ => some (s.account t mode)
    | .relock t, .accounted mode => some (s.relock t mode)
    -- the reactor announces the jobs of its software events itself
    | .onJobArrival _, .inReactor _ _ => some s.onJobArrival
    | .onJobArrival _, ph => if ph.isUserCode then some s.onJobArrival else none
    | .onJobCompletion t, ph => if ph.isUserCode then some (s.onJobCompletion t) else none
    | .stop _, ph => if ph.isUserCode then some s.stop else none
    | .restart _, ph => if ph.isUserCode then some { s with stopRequested := false } else none
    | .useReactorService _ u, ph => if ph.isUserCode then s.useReactorService u else none
    | _, _ => none

/-- What the enabled steps do, one case for each, with what it finds in the thread that takes it. -/
inductive Transition (s : State T) : Action T → State T → Prop
  | finishStop {t : T} : Transition s (.finishStop t) (s.finishStop t)
  | enter {t : T} {mode : RunMode} (hphase : (s.threads t).phase = .client) :
      Transition s (.enter t mode) (s.enter t mode)
  | leave {t u : T} {mode : RunMode} (hphase : (s.threads t).phase = .processing mode)
      (hleave : mode = .runOne ∨ s.stopRequested = true) :
      Transition s (.processNext t u) (s.setPhase t .client)
  | takeNull {t u : T} {mode : RunMode} {rest : List ExecutorOperation} {s₁ : State T}
      (hphase : (s.threads t).phase = .processing mode) (hstop : s.stopRequested = false)
      (hqueue : s.operationQueue = .null :: rest)
      (hwake : { s with operationQueue := rest }.wakeForPending u = some s₁) :
      Transition s (.processNext t u)
        ({ s₁ with reactorNeedsInterrupt := rest.isEmpty }.setPhase t
          (.inReactor mode (!rest.isEmpty)))
  | takeJob {t u : T} {mode : RunMode} {op : OpId} {rest : List ExecutorOperation} {s₁ : State T}
      (hphase : (s.threads t).phase = .processing mode) (hstop : s.stopRequested = false)
      (hqueue : s.operationQueue = .job op :: rest)
      (hwake : { s with operationQueue := rest }.wakeForPending u = some s₁) :
      Transition s (.processNext t u) (s₁.setPhase t (.running mode op))
  | wait {t u : T} {mode : RunMode} (hphase : (s.threads t).phase = .processing mode)
      (hstop : s.stopRequested = false) (hqueue : s.operationQueue = []) :
      Transition s (.processNext t u)
        ({ s with cvWaitCount := s.cvWaitCount + 1 }.setPhase t (.waiting mode false))
  | wake {t : T} {mode : RunMode} (hphase : (s.threads t).phase = .waiting mode true) :
      Transition s (.wake t) (s.wake t mode)
  | spuriousWake {t : T} {mode : RunMode} (hphase : (s.threads t).phase = .waiting mode false) :
      Transition s (.spuriousWake t) (s.setPhase t (.waiting mode true))
  | reactorReturn {t : T} {mode : RunMode} {pending : Bool} {ops : List OpId} {unblocked : Bool}
      {s' : State T} (hphase : (s.threads t).phase = .inReactor mode pending)
      (hreturn : s.reactorReturn t mode ops unblocked = some s') :
      Transition s (.reactorReturn t ops unblocked) s'
  | reactorError {t : T} {mode : RunMode} {pending : Bool}
      (hphase : (s.threads t).phase = .inReactor mode pending) :
      Transition s (.reactorError t) (s.reactorError t)
  | reactorRelock {t : T} {mode : RunMode} (hphase : (s.threads t).phase = .reactorReturned mode) :
      Transition s (.reactorRelock t) (s.reactorRelock t mode)
  | postOutside {t : T} {op : OpId} (hphase : (s.threads t).phase = .client) :
      Transition s (.post t op) (s.onJobArrival.setPhase t (.posting op))
  | postInside {t : T} {op op' : OpId} {mode : RunMode}
      (hphase : (s.threads t).phase = .running mode op') :
      Transition s (.post t op) (s.enqueuePrivate t op 1)
  | dispatchOutside {t : T} {op : OpId} (hphase : (s.threads t).phase = .client) :
      Transition s (.dispatch t op) (s.onJobArrival.setPhase t (.posting op))
  | dispatchInside {t : T} {op : OpId} : Transition s (.dispatch t op) s
  | push {t u : T} {op : OpId} {s' : State T} (hphase : (s.threads t).phase = .posting op)
      (hpush : (s.setPhase t .client).enqueue (.job op) u = some s') : Transition s (.push t u) s'
  | enqueue {t u : T} {op : OpId} {s' : State T} (henqueue : s.enqueue (.job op) u = some s') :
      Transition s (.enqueuePostJobArrival t op u) s'
  | enqueuePrivate {t u : T} {op op' : OpId} {mode : RunMode}
      (hphase : (s.threads t).phase = .running mode op') :
      Transition s (.enqueuePostJobArrival t op u) (s.enqueuePrivate t op 0)
  | account {t : T} {mode : RunMode} {op : OpId} (hphase : (s.threads t).phase = .running mode op) :
      Transition s (.account t) (s.account t mode)
  | relock {t : T} {mode : RunMode} (hphase : (s.threads t).phase = .accounted mode) :
      Transition s (.relock t) (s.relock t mode)
  | onJobArrival {t : T} : Transition s (.onJobArrival t) s.onJobArrival
  | onJobCompletion {t : T} : Transition s (.onJobCompletion t) (s.onJobCompletion t)
  | stop {t : T} : Transition s (.stop t) s.stop
  | restart {t : T} : Transition s (.restart t) { s with stopRequested := false }
  | useReactorService {t u : T} {s' : State T} (huse : s.useReactorService u = some s') :
      Transition s (.useReactorService t u) s'

variable {s s' : State T} {t u : T} {mode : RunMode}

omit [Fintype T] in
/-- `OnJobCompletion()` changes the counter and may leave the thread inside `Stop()`. -/
theorem onJobCompletion_eq (s : State T) (t : T) :
    ∃ (count : ℕ) (pending : Bool), s.onJobCompletion t =
      { s with jobCount := count }.setThread t { s.threads t with stopPending := pending } := by
  simp only [onJobCompletion]
  split
  · exact ⟨_, _, rfl⟩
  · refine ⟨fetchSub s.jobCount 1, (s.threads t).stopPending, ?_⟩
    simp only [setThread, Function.update_eq_self]

omit [Fintype T] in
/-- The fold of the private counter changes the counter and the thread. -/
theorem account_eq (s : State T) (t : T) (mode : RunMode) :
    ∃ (count : ℕ) (info : ThreadInfo) (pending : Bool), s.account t mode =
      { s with jobCount := count }.setThread t ⟨.accounted mode, info, pending⟩ := by
  obtain ⟨count, pending, hcompletion⟩ := s.onJobCompletion_eq t
  simp only [account]
  split
  · exact ⟨_, _, _, rfl⟩
  split
  · rw [hcompletion]
    simp only [setThread, Function.update_idem]
    exact ⟨_, _, _, rfl⟩
  · exact ⟨_, _, _, rfl⟩

/-- An iteration of `ProcessNextOperation()` leaves, takes the null operation or a job, or waits. -/
theorem transition_of_processNext (hphase : (s.threads t).phase = .processing mode)
    (hs' : s.processNext t mode u = some s') : s.Transition (.processNext t u) s' := by
  unfold processNext at hs'
  split at hs'
  · rename_i hleave
    obtain rfl := Option.some.inj hs'
    exact .leave hphase (.inl hleave.1)
  split at hs'
  · rename_i hstop
    obtain rfl := Option.some.inj hs'
    exact .leave hphase (.inr hstop)
  · rename_i hstop
    rw [Bool.not_eq_true] at hstop
    split at hs' <;> rename_i hqueue
    · obtain ⟨s₁, hwake, rfl⟩ := Option.map_eq_some_iff.mp hs'
      exact .takeNull hphase hstop hqueue hwake
    · obtain ⟨s₁, hwake, rfl⟩ := Option.map_eq_some_iff.mp hs'
      exact .takeJob hphase hstop hqueue hwake
    · obtain rfl := Option.some.inj hs'
      exact .wait hphase hstop hqueue

/-- A step is one of the transitions. -/
theorem transition_of_step {a : Action T} (hs' : s.step a = some s') : s.Transition a s' := by
  unfold step at hs'
  split at hs'
  · -- a thread inside `Stop()` can only finish it
    cases a <;> simp only [reduceCtorEq] at hs'
    obtain rfl := Option.some.inj hs'
    exact .finishStop
  split at hs' <;> rename_i hphase
  · obtain rfl := Option.some.inj hs'
    exact .enter hphase
  · exact transition_of_processNext hphase hs'
  · obtain rfl := Option.some.inj hs'
    exact .wake hphase
  · obtain rfl := Option.some.inj hs'
    exact .spuriousWake hphase
  · exact .reactorReturn hphase hs'
  · obtain rfl := Option.some.inj hs'
    exact .reactorError hphase
  · obtain rfl := Option.some.inj hs'
    exact .reactorRelock hphase
  · obtain rfl := Option.some.inj hs'
    exact .postOutside hphase
  · obtain rfl := Option.some.inj hs'
    exact .postInside hphase
  · obtain rfl := Option.some.inj hs'
    exact .dispatchOutside hphase
  · obtain rfl := Option.some.inj hs'
    exact .dispatchInside
  · exact .push hphase hs'
  · exact .enqueue hs'
  · unfold enqueuePostJobArrivalInside at hs'
    split at hs'
    · obtain rfl := Option.some.inj hs'
      exact .enqueuePrivate hphase
    · exact .enqueue hs'
  · obtain rfl := Option.some.inj hs'
    exact .account hphase
  · obtain rfl := Option.some.inj hs'
    exact .relock hphase
  · obtain rfl := Option.some.inj hs'
    exact .onJobArrival
  -- the calls that user code may make in any phase of its own
  · obtain ⟨-, hs'⟩ := Option.ite_none_right_eq_some.mp hs'
    obtain rfl := Option.some.inj hs'
    exact .onJobArrival
  · obtain ⟨-, hs'⟩ := Option.ite_none_right_eq_some.mp hs'
    obtain rfl := Option.some.inj hs'
    exact .onJobCompletion
  · obtain ⟨-, hs'⟩ := Option.ite_none_right_eq_some.mp hs'
    obtain rfl := Option.some.inj hs'
    exact .stop
  · obtain ⟨-, hs'⟩ := Option.ite_none_right_eq_some.mp hs'
    obtain rfl := Option.some.inj hs'
    exact .restart
  · obtain ⟨-, hs'⟩ := Option.ite_none_right_eq_some.mp hs'
    exact .useReactorService hs'
  · cases hs'

end State

/-- The executor as a machine: it starts empty, for one thread or for several, with every thread
outside. -/
def machine (T : Type) [Fintype T] [DecidableEq T] : ToMathlib.Machine (State T) (Action T) where
  init s := s = { singleThread := s.singleThread }
  step := State.step

end Asrt.WorkerPool
