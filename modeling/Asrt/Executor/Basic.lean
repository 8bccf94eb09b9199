import Mathlib.Data.Fintype.BigOperators
import Asrt.ToMathlib.Machine

/-!
# The executor without services

`IO_Executor` as it runs plain jobs: no reactor, no timer service (`io_executor.ipp`,
`io_executor.hpp`, `details.hpp`, `executor_work_guard.hpp`). Any finite number of threads enter and
leave `Run()` and `RunOne()`, post and dispatch from outside and from inside jobs, stop and restart
the executor and hold work guards.

A step is one critical section of `mtx_` or one atomic access to `job_count_`, together with the
thread-local code around it. The thread-local accesses to `ThreadInfo` commute with every other
thread and are merged into the neighbouring step. `Run()` keeps the mutex between two calls of
`ProcessNextOperation()`; the model lets other threads in there, which only adds interleavings.

`ProcessNextOperation()` destroys the operation it has called at its return, behind the transfer of
the private queue and with the mutex held. The destructors of what the closure has captured are user
code, which may post, dispatch and create or destroy a work guard; a call that takes the mutex would
not return. `ThreadInfo` is destroyed when `Run()` or `RunOne()` returns, with the operations that
are still in its queue.

Operations are identified by the order in which their posts were announced. The ghost fields
`nextOp`, `started` and `lost` record the identifiers handed out, the operations whose execution
began and those that were destroyed with a private queue.
-/

namespace Asrt.Executor

/-- `fetch_add` on a `std::atomic<std::uint32_t>`: the new value. -/
def fetchAdd (counter amount : ℕ) : ℕ := (counter + amount) % 2 ^ 32

/-- `fetch_sub` on a `std::atomic<std::uint32_t>`: the new value, which wraps below zero. -/
def fetchSub (counter amount : ℕ) : ℕ := (counter + (2 ^ 32 - amount % 2 ^ 32)) % 2 ^ 32

/-- `fetch_add` does not wrap while the sum fits. -/
theorem fetchAdd_eq {c k : ℕ} (h : c + k < 2 ^ 32) : fetchAdd c k = c + k :=
  Nat.mod_eq_of_lt h

/-- `fetch_sub` does not wrap on a positive counter. -/
theorem fetchSub_one {c : ℕ} (hpos : 0 < c) (hlt : c < 2 ^ 32) : fetchSub c 1 = c - 1 := by
  unfold fetchSub
  omega

/-- An operation, named by the order in which the posts were announced. -/
abbrev OpId := ℕ

/-- `ThreadInfo`: the queue and the counter a thread inside `Run()` keeps to itself. -/
structure ThreadInfo where
  /-- `private_op_queue_` -/
  privateOpQueue : List OpId := []
  /-- `private_job_count_` -/
  privateJobCount : ℕ := 0
deriving DecidableEq, Repr

/-- Which of the two entry points a worker thread is in. -/
inductive RunMode
  | run
  | runOne
deriving DecidableEq, Repr

/-- Where a thread stands. Code of the user runs in `client`, in `running` and, as destructors, in
`destroying`. -/
inductive Phase
  /-- Outside of `Run()` and `RunOne()`. -/
  | client
  /-- Outside, between `OnJobArrival()` and the `push_back` of a posted operation. -/
  | posting (op : OpId)
  /-- At the head of the loop of `ProcessNextOperation()`. -/
  | processing (mode : RunMode)
  /-- In `cv_.wait()`. -/
  | waiting (mode : RunMode)
  /-- Executing an operation, with the mutex released. -/
  | running (mode : RunMode) (op : OpId)
  /-- The operation returned and its counters are folded; the mutex is not yet taken again. -/
  | accounted (mode : RunMode)
  /-- The private queue is moved and the operation is being destroyed, with the mutex held. -/
  | destroying (mode : RunMode)
deriving DecidableEq, Repr

/-- A thread: its phase, its `ThreadInfo`, and whether it is inside a call of `Stop()` that the
executor itself made and that has not taken the mutex yet. -/
structure Thread where
  phase : Phase := .client
  info : ThreadInfo := {}
  stopPending : Bool := false
deriving DecidableEq, Repr

/-- The shared members of the executor and the threads that use it. -/
structure State (T : Type) where
  /-- `stop_requested_` -/
  stopRequested : Bool := false
  /-- `operation_queue_` -/
  operationQueue : List OpId := []
  /-- `job_count_` -/
  jobCount : ℕ := 0
  /-- `cv_wait_count_` -/
  cvWaitCount : ℕ := 0
  /-- The `WorkGuard` objects alive. -/
  workGuards : ℕ := 0
  threads : T → Thread := fun _ => {}
  /-- Ghost: the identifier of the next operation. -/
  nextOp : OpId := 0
  /-- Ghost: the operations whose execution has begun, latest first. -/
  started : List OpId := []
  /-- Ghost: the operations destroyed with the private queue of a thread that has left. -/
  lost : List OpId := []

/-- The steps of a thread. -/
inductive Action (T : Type)
  /-- Call `Run()` or `RunOne()`. -/
  | enter (t : T) (mode : RunMode)
  /-- One iteration of the loop of `ProcessNextOperation()`, up to the unlock or the wait. -/
  | processNext (t : T)
  /-- Return from `cv_.wait()`. -/
  | wake (t : T)
  /-- Call `Post()`. -/
  | post (t : T)
  /-- Call `Dispatch()`. -/
  | dispatch (t : T)
  /-- The locked part of a post made outside the executor. -/
  | push (t : T)
  /-- The operation returns and the private counter is folded into `job_count_`. -/
  | account (t : T)
  /-- Take the mutex again and move the private queue to the shared one. -/
  | relock (t : T)
  /-- The operation is destroyed and `ProcessNextOperation()` returns. -/
  | returnProcessed (t : T)
  /-- Construct a `WorkGuard`. -/
  | createGuard (t : T)
  /-- Destroy a `WorkGuard`. -/
  | destroyGuard (t : T)
  /-- The locked part of a `Stop()` made by the executor. -/
  | finishStop (t : T)
  /-- The user calls `Stop()`. -/
  | stop (t : T)
  /-- The user calls `Restart()`. -/
  | restart (t : T)
deriving DecidableEq, Repr

/-- The thread that takes a step. -/
def Action.thread {T : Type} : Action T → T
  | .enter t _ | .processNext t | .wake t | .post t | .dispatch t | .push t | .account t
  | .relock t | .returnProcessed t | .createGuard t | .destroyGuard t | .finishStop t | .stop t
  | .restart t => t

/-- User code runs in this phase and may hold or release a work guard. -/
def Phase.isUserCode : Phase → Bool
  | .client | .running _ _ | .destroying _ => true
  | _ => false

/-- User code runs in this phase and may take the mutex. -/
def Phase.mayLock : Phase → Bool
  | .client | .running _ _ => true
  | _ => false

namespace State

variable {T : Type} [DecidableEq T]

/-- Replace the state of one thread. -/
def setThread (s : State T) (t : T) (th : Thread) : State T :=
  { s with threads := Function.update s.threads t th }

@[simp] theorem setThread_stopRequested (s : State T) (t : T) (th : Thread) :
    (s.setThread t th).stopRequested = s.stopRequested := rfl

@[simp] theorem setThread_operationQueue (s : State T) (t : T) (th : Thread) :
    (s.setThread t th).operationQueue = s.operationQueue := rfl

@[simp] theorem setThread_jobCount (s : State T) (t : T) (th : Thread) :
    (s.setThread t th).jobCount = s.jobCount := rfl

@[simp] theorem setThread_workGuards (s : State T) (t : T) (th : Thread) :
    (s.setThread t th).workGuards = s.workGuards := rfl

@[simp] theorem setThread_nextOp (s : State T) (t : T) (th : Thread) :
    (s.setThread t th).nextOp = s.nextOp := rfl

@[simp] theorem setThread_started (s : State T) (t : T) (th : Thread) :
    (s.setThread t th).started = s.started := rfl

@[simp] theorem setThread_lost (s : State T) (t : T) (th : Thread) :
    (s.setThread t th).lost = s.lost := rfl

@[simp] theorem setThread_threads (s : State T) (t : T) (th : Thread) :
    (s.setThread t th).threads = Function.update s.threads t th := rfl

/-- `OnJobArrival()` -/
def onJobArrival (s : State T) : State T := { s with jobCount := fetchAdd s.jobCount 1 }

/-- `OnJobCompletion()`: the value before the `fetch_sub` is compared with zero, and thread `t` goes
on to call `Stop()` if it was. -/
def onJobCompletion (s : State T) (t : T) : State T :=
  let old := s.jobCount
  let s := { s with jobCount := fetchSub s.jobCount 1 }
  if old = 0 then s.setThread t { s.threads t with stopPending := true } else s

/-- The entry of `Run()` and `RunOne()`: without jobs the executor is stopped, otherwise a fresh
`ThreadInfo` becomes the thread's context. -/
def enter (s : State T) (t : T) (mode : RunMode) : State T :=
  if s.jobCount = 0 then s.setThread t { s.threads t with stopPending := true }
  else s.setThread t { phase := .processing mode, info := {} }

/-- `Run()` or `RunOne()` returns: the `ThreadInfo` is destroyed with what is left in its queue. -/
def leave (s : State T) (t : T) : State T :=
  { s with lost := s.lost ++ (s.threads t).info.privateOpQueue }.setThread t
    { s.threads t with phase := .client, info := {} }

/-- One iteration of `ProcessNextOperation()`. `RunOne()` looks at the queue first and returns if
it is empty, so only `Run()` reaches the wait. -/
def processNext (s : State T) (t : T) (mode : RunMode) : State T :=
  if mode = .runOne ∧ s.operationQueue = [] then s.leave t
  else if s.stopRequested then s.leave t
  else
    match s.operationQueue with
    | op :: rest =>
      { s with operationQueue := rest, started := op :: s.started }.setThread t
        { s.threads t with phase := .running mode op }
    | [] =>
      { s with cvWaitCount := s.cvWaitCount + 1 }.setThread t
        { s.threads t with phase := .waiting mode }

/-- `cv_.wait()` returns once its predicate, a non-empty queue, holds. -/
def wake (s : State T) (t : T) (mode : RunMode) : Option (State T) :=
  if s.operationQueue = [] then none
  else some ({ s with cvWaitCount := s.cvWaitCount - 1 }.setThread t
    { s.threads t with phase := .processing mode })

/-- `EnqueueOnJobArrival()` outside the executor, up to the mutex. -/
def announce (s : State T) (t : T) : State T :=
  { s.onJobArrival with nextOp := s.nextOp + 1 }.setThread t
    { s.threads t with phase := .posting s.nextOp }

/-- `EnqueueOnJobArrival()` inside the executor: the operation goes to the private queue. -/
def enqueuePrivate (s : State T) (t : T) : State T :=
  let th := s.threads t
  { s with nextOp := s.nextOp + 1 }.setThread t
    { th with info :=
      { privateOpQueue := th.info.privateOpQueue ++ [s.nextOp]
        privateJobCount := fetchAdd th.info.privateJobCount 1 } }

/-- The locked part of a post made outside the executor. -/
def push (s : State T) (t : T) (op : OpId) : State T :=
  { s with operationQueue := s.operationQueue ++ [op] }.setThread t
    { s.threads t with phase := .client }

/-- The fold of `private_job_count_` after an operation has returned. -/
def account (s : State T) (t : T) (mode : RunMode) : State T :=
  let th := s.threads t
  let s' :=
    if 1 < th.info.privateJobCount then
      { s with jobCount := fetchAdd s.jobCount (th.info.privateJobCount - 1) }
    else if th.info.privateJobCount = 0 then s.onJobCompletion t
    else s
  s'.setThread t
    { s'.threads t with
      phase := .accounted mode
      info := { th.info with privateJobCount := 0 } }

/-- The private queue moves to the back of the shared one, and the operation goes out of scope. -/
def relock (s : State T) (t : T) (mode : RunMode) : State T :=
  let th := s.threads t
  { s with operationQueue := s.operationQueue ++ th.info.privateOpQueue }.setThread t
    { th with phase := .destroying mode, info := { th.info with privateOpQueue := [] } }

/-- After the operation is destroyed, `Run()` goes on with the next one and `RunOne()` returns. -/
def returnProcessed (s : State T) (t : T) : RunMode → State T
  | .run => s.setThread t { s.threads t with phase := .processing .run }
  | .runOne => s.leave t

/-- `~WorkGuard()` -/
def destroyGuard (s : State T) (t : T) : Option (State T) :=
  if s.workGuards = 0 then none
  else some ({ s with workGuards := s.workGuards - 1 }.onJobCompletion t)

/-- The locked part of `Stop()`. -/
def finishStop (s : State T) (t : T) : State T :=
  { s with stopRequested := true }.setThread t { s.threads t with stopPending := false }

/-- The step labelled by an action, if it is enabled. A thread inside `Stop()` does nothing else. -/
def step (s : State T) (a : Action T) : Option (State T) :=
  if (s.threads a.thread).stopPending then
    match a with
    | .finishStop t => some (s.finishStop t)
    | _ => none
  else
    match a, (s.threads a.thread).phase with
    | .enter t mode, .client => some (s.enter t mode)
    | .processNext t, .processing mode => some (s.processNext t mode)
    | .wake t, .waiting mode => s.wake t mode
    | .post t, .client => some (s.announce t)
    | .post t, .running _ _ | .post t, .destroying _ => some (s.enqueuePrivate t)
    | .dispatch t, .client => some (s.announce t)
    -- inside the executor the operation is invoked inline, as part of the running code
    | .dispatch _, .running _ _ | .dispatch _, .destroying _ => some s
    | .push t, .posting op => some (s.push t op)
    | .account t, .running mode _ => some (s.account t mode)
    | .relock t, .accounted mode => some (s.relock t mode)
    | .returnProcessed t, .destroying mode => some (s.returnProcessed t mode)
    | .createGuard _, ph =>
      if ph.isUserCode then some { s.onJobArrival with workGuards := s.workGuards + 1 } else none
    | .destroyGuard t, ph => if ph.isUserCode then s.destroyGuard t else none
    | .stop _, ph => if ph.mayLock then some { s with stopRequested := true } else none
    | .restart _, ph => if ph.mayLock then some { s with stopRequested := false } else none
    | _, _ => none

/-- What the enabled steps do, one case for each, with what it finds in the thread that takes it. -/
inductive Transition (s : State T) : Action T → State T → Prop
  | finishStop {t : T} (hpending : (s.threads t).stopPending = true) :
      Transition s (.finishStop t) (s.finishStop t)
  | enter {t : T} {mode : RunMode} (hpending : (s.threads t).stopPending = false)
      (hphase : (s.threads t).phase = .client) : Transition s (.enter t mode) (s.enter t mode)
  | processNext {t : T} {mode : RunMode} (hphase : (s.threads t).phase = .processing mode) :
      Transition s (.processNext t) (s.processNext t mode)
  | wake {t : T} {mode : RunMode} {s' : State T} (hphase : (s.threads t).phase = .waiting mode)
      (hwake : s.wake t mode = some s') : Transition s (.wake t) s'
  | postOutside {t : T} (hphase : (s.threads t).phase = .client) :
      Transition s (.post t) (s.announce t)
  | postInside {t : T} {mode : RunMode} {op : OpId}
      (hphase : (s.threads t).phase = .running mode op) :
      Transition s (.post t) (s.enqueuePrivate t)
  | postDestroying {t : T} {mode : RunMode} (hphase : (s.threads t).phase = .destroying mode) :
      Transition s (.post t) (s.enqueuePrivate t)
  | dispatchOutside {t : T} (hphase : (s.threads t).phase = .client) :
      Transition s (.dispatch t) (s.announce t)
  | dispatchInside {t : T} (hphase : (s.threads t).phase ≠ .client) :
      Transition s (.dispatch t) s
  | push {t : T} {op : OpId} (hphase : (s.threads t).phase = .posting op) :
      Transition s (.push t) (s.push t op)
  | account {t : T} {mode : RunMode} {op : OpId}
      (hphase : (s.threads t).phase = .running mode op) :
      Transition s (.account t) (s.account t mode)
  | relock {t : T} {mode : RunMode} (hphase : (s.threads t).phase = .accounted mode) :
      Transition s (.relock t) (s.relock t mode)
  | returnProcessed {t : T} {mode : RunMode} (hphase : (s.threads t).phase = .destroying mode) :
      Transition s (.returnProcessed t) (s.returnProcessed t mode)
  | createGuard {t : T} :
      Transition s (.createGuard t) { s.onJobArrival with workGuards := s.workGuards + 1 }
  | destroyGuard {t : T} {s' : State T} (hdestroy : s.destroyGuard t = some s') :
      Transition s (.destroyGuard t) s'
  | stop {t : T} : Transition s (.stop t) { s with stopRequested := true }
  | restart {t : T} : Transition s (.restart t) { s with stopRequested := false }

/-- A step is one of the transitions. -/
theorem transition_of_step {s s' : State T} {a : Action T} (hs' : s.step a = some s') :
    s.Transition a s' := by
  unfold step at hs'
  split at hs'
  · -- a thread inside `Stop()` can only finish it
    rename_i hpending
    cases a <;> simp only [reduceCtorEq] at hs'
    obtain rfl := Option.some.inj hs'
    exact .finishStop hpending
  · rename_i hpending
    split at hs' <;> rename_i hphase
    · obtain rfl := Option.some.inj hs'
      exact .enter (by simpa [Action.thread] using hpending) hphase
    · obtain rfl := Option.some.inj hs'
      exact .processNext hphase
    · exact .wake hphase hs'
    · obtain rfl := Option.some.inj hs'
      exact .postOutside hphase
    · obtain rfl := Option.some.inj hs'
      exact .postInside hphase
    · obtain rfl := Option.some.inj hs'
      exact .postDestroying hphase
    · obtain rfl := Option.some.inj hs'
      exact .dispatchOutside hphase
    · obtain rfl := Option.some.inj hs'
      exact .dispatchInside fun hclient => Phase.noConfusion (hclient.symm.trans hphase)
    · obtain rfl := Option.some.inj hs'
      exact .dispatchInside fun hclient => Phase.noConfusion (hclient.symm.trans hphase)
    · obtain rfl := Option.some.inj hs'
      exact .push hphase
    · obtain rfl := Option.some.inj hs'
      exact .account hphase
    · obtain rfl := Option.some.inj hs'
      exact .relock hphase
    · obtain rfl := Option.some.inj hs'
      exact .returnProcessed hphase
    -- the calls that user code may make in any phase of its own
    · obtain ⟨-, hs'⟩ := Option.ite_none_right_eq_some.mp hs'
      obtain rfl := Option.some.inj hs'
      exact .createGuard
    · obtain ⟨-, hs'⟩ := Option.ite_none_right_eq_some.mp hs'
      exact .destroyGuard hs'
    · obtain ⟨-, hs'⟩ := Option.ite_none_right_eq_some.mp hs'
      obtain rfl := Option.some.inj hs'
      exact .stop
    · obtain ⟨-, hs'⟩ := Option.ite_none_right_eq_some.mp hs'
      obtain rfl := Option.some.inj hs'
      exact .restart
    · cases hs'

end State

/-- The executor as a machine: it starts empty, with every thread outside. -/
def machine (T : Type) [DecidableEq T] : ToMathlib.Machine (State T) (Action T) where
  init s := s = {}
  step := State.step

end Asrt.Executor
