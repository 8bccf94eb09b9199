import Asrt.Executor.Basic

/-!
# Several executors on one thread

Any number of `IO_Executor` objects and threads; a thread may call `Run()` or `RunOne()` of one
executor from inside a job of another one or of the same one (`io_executor.ipp`, `io_executor.hpp`,
`details.hpp`).

`ExecutionContext<ThreadInfo>` is a thread-local of the class: its constructor in `Run()` sets
`content_` to the `ThreadInfo` of this call, and its destructor sets it to null. So `content_` is
the `ThreadInfo` of the innermost call, or null once an inner call has returned. `Post()` and
`Dispatch()` look at `content_` and not at whose call it belongs to.

An operation carries the executor it was posted or dispatched to. A step is one critical section of
an executor's `mtx_` or one atomic access to its `job_count_`, with the thread-local code around it;
a `Stop()` that the executor itself calls is merged into the step that calls it.
-/

namespace Asrt.Instances

open Executor (OpId RunMode fetchAdd fetchSub)

variable {T E : Type}

/-- An operation, with the executor it was posted or dispatched to. -/
structure Operation (E : Type) where
  target : E
  op : OpId
deriving DecidableEq, Repr

/-- `ThreadInfo` -/
structure ThreadInfo (E : Type) where
  /-- `private_op_queue_` -/
  privateOpQueue : List (Operation E) := []
  /-- `private_job_count_` -/
  privateJobCount : ℕ := 0
deriving DecidableEq, Repr

/-- Where a call of `Run()` or `RunOne()` stands. -/
inductive Phase (E : Type)
  /-- At the head of the loop of `ProcessNextOperation()`. -/
  | processing
  /-- Executing an operation, with the mutex released. -/
  | running (operation : Operation E)
  /-- The operation returned and its counters are folded; the mutex is not yet taken again. -/
  | accounted
deriving DecidableEq, Repr

/-- A call of `Run()` or `RunOne()` of an executor, with its `ThreadInfo`. -/
structure Frame (E : Type) where
  executor : E
  mode : RunMode
  phase : Phase E := .processing
  info : ThreadInfo E := {}
deriving DecidableEq, Repr

/-- A thread. -/
structure Thread (E : Type) where
  /-- The calls of `Run()` and `RunOne()` the thread is in, innermost first. -/
  stack : List (Frame E) := []
  /-- `content_` is not null; it is the `ThreadInfo` of the innermost call then. -/
  hasContent : Bool := false
  /-- The operation of a post between `OnJobArrival()` and the critical section. -/
  posting : Option (Operation E) := none
deriving DecidableEq, Repr

/-- The shared members of an executor. -/
structure Members (E : Type) where
  /-- `operation_queue_` -/
  operationQueue : List (Operation E) := []
  /-- `job_count_` -/
  jobCount : ℕ := 0
  /-- `stop_requested_` -/
  stopRequested : Bool := false
deriving DecidableEq, Repr

/-- The executors and the threads. -/
structure State (T E : Type) where
  executors : E → Members E := fun _ => {}
  threads : T → Thread E := fun _ => {}
  /-- Ghost: the operations executed, with the executor whose `Run()` or `RunOne()` executed
  them. -/
  executed : List (Operation E × E) := []

/-- The steps of a thread. -/
inductive Action (T E : Type)
  /-- Call `Run()` or `RunOne()` of an executor. -/
  | enter (t : T) (e : E) (mode : RunMode)
  /-- One iteration of the loop of the innermost call. -/
  | processNext (t : T)
  /-- Call `Post()` of an executor. -/
  | post (t : T) (e : E) (op : OpId)
  /-- Call `Dispatch()` of an executor. -/
  | dispatch (t : T) (e : E) (op : OpId)
  /-- The critical section of a post without a context. -/
  | push (t : T)
  /-- The operation returns and the private counter is folded into `job_count_`. -/
  | account (t : T)
  /-- Take the mutex again and move the private queue to the shared one. -/
  | relock (t : T)
  /-- Call `Stop()` of an executor. -/
  | stop (t : T) (e : E)
  /-- Call `Restart()` of an executor. -/
  | restart (t : T) (e : E)
deriving DecidableEq, Repr

/-- The fold of `private_job_count_` after an operation has returned. If `job_count_` was zero
before its decrement, the executor is stopped. -/
def Members.fold (m : Members E) (privateJobCount : ℕ) : Members E :=
  if 1 < privateJobCount then { m with jobCount := fetchAdd m.jobCount (privateJobCount - 1) }
  else if privateJobCount = 0 then
    { m with
      jobCount := fetchSub m.jobCount 1
      stopRequested := m.stopRequested || m.jobCount = 0 }
  else m

/-- User code is running: the thread's own code, or the operation of the innermost call. -/
def Thread.isUserCode (th : Thread E) : Bool :=
  th.posting.isNone &&
    match th.stack with
    | [] => true
    | f :: _ => match f.phase with | .running _ => true | _ => false

/-- The executor whose `ThreadInfo` is `content_`. -/
def Thread.context (th : Thread E) : Option E :=
  if th.hasContent then th.stack.head?.map Frame.executor else none

namespace State

variable [DecidableEq T] [DecidableEq E]

/-- Replace the state of one thread. -/
def setThread (s : State T E) (t : T) (th : Thread E) : State T E :=
  { s with threads := Function.update s.threads t th }

/-- Replace the members of one executor. -/
def setMembers (s : State T E) (e : E) (m : Members E) : State T E :=
  { s with executors := Function.update s.executors e m }

omit [DecidableEq E] in
@[simp] theorem setThread_executors (s : State T E) (t : T) (th : Thread E) :
    (s.setThread t th).executors = s.executors := rfl

omit [DecidableEq T] in
@[simp] theorem setMembers_executors (s : State T E) (e : E) (m : Members E) :
    (s.setMembers e m).executors = Function.update s.executors e m := rfl

/-- The innermost call of thread `t` returns: the destructor of its context resets `content_`. -/
def leave (s : State T E) (t : T) (rest : List (Frame E)) : State T E :=
  s.setThread t { s.threads t with stack := rest, hasContent := false }

/-- The entry of `Run()` and `RunOne()`: without jobs the executor is stopped, otherwise a fresh
`ThreadInfo` becomes the thread's context. -/
def enter (s : State T E) (t : T) (e : E) (mode : RunMode) : State T E :=
  if (s.executors e).jobCount = 0 then
    s.setMembers e { s.executors e with stopRequested := true }
  else
    s.setThread t
      { s.threads t with
        stack := { executor := e, mode } :: (s.threads t).stack
        hasContent := true }

/-- One iteration of the loop of the innermost call: leave, or take an operation. `Run()` waits for
one if the queue is empty. -/
def processNext (s : State T E) (t : T) (f : Frame E) (rest : List (Frame E)) :
    Option (State T E) :=
  let m := s.executors f.executor
  if m.stopRequested then some (s.leave t rest)
  else
    match m.operationQueue with
    | operation :: queue =>
      some ({ s with executed := (operation, f.executor) :: s.executed }.setMembers f.executor
        { m with operationQueue := queue }
        |>.setThread t
          { s.threads t with stack := { f with phase := .running operation } :: rest })
    | [] => if f.mode = .runOne then some (s.leave t rest) else none

/-- `EnqueueOnJobArrival()` without a context, up to the mutex. -/
def announce (s : State T E) (t : T) (operation : Operation E) : State T E :=
  let m := s.executors operation.target
  (s.setMembers operation.target { m with jobCount := fetchAdd m.jobCount 1 }).setThread t
    { s.threads t with posting := some operation }

/-- `EnqueueOnJobArrival()` with a context: the operation goes to the `ThreadInfo` of the innermost
call. -/
def enqueuePrivate (s : State T E) (t : T) (operation : Operation E) : Option (State T E) :=
  match (s.threads t).stack with
  | [] => none
  | f :: rest =>
    some (s.setThread t
      { s.threads t with
        stack :=
          { f with
            info :=
              { privateOpQueue := f.info.privateOpQueue ++ [operation]
                privateJobCount := fetchAdd f.info.privateJobCount 1 } } :: rest })

/-- `Post()` -/
def post (s : State T E) (t : T) (operation : Operation E) : Option (State T E) :=
  if (s.threads t).hasContent then s.enqueuePrivate t operation
  else some (s.announce t operation)

/-- `Dispatch()`: with a context the operation is executed at once, inside the innermost call. -/
def dispatch (s : State T E) (t : T) (operation : Operation E) : Option (State T E) :=
  if (s.threads t).hasContent then
    match (s.threads t).stack with
    | [] => none
    | f :: _ => some { s with executed := (operation, f.executor) :: s.executed }
  else some (s.announce t operation)

/-- The critical section of a post without a context. -/
def push (s : State T E) (t : T) (operation : Operation E) : State T E :=
  let m := s.executors operation.target
  (s.setMembers operation.target
    { m with operationQueue := m.operationQueue ++ [operation] }).setThread t
      { s.threads t with posting := none }

/-- An operation of a call returned: the call marks it and folds its private counter. -/
def account (s : State T E) (t : T) (f : Frame E) (rest : List (Frame E)) : State T E :=
  (s.setMembers f.executor ((s.executors f.executor).fold f.info.privateJobCount)).setThread t
    { s.threads t with
      stack :=
        { f with phase := .accounted, info := { f.info with privateJobCount := 0 } } :: rest }

/-- The private queue moves to the back of the shared one; `Run()` goes on and `RunOne()`
returns. -/
def relock (s : State T E) (t : T) (f : Frame E) (rest : List (Frame E)) : State T E :=
  let m := s.executors f.executor
  let s := s.setMembers f.executor
    { m with operationQueue := m.operationQueue ++ f.info.privateOpQueue }
  match f.mode with
  | .run =>
    s.setThread t
      { s.threads t with
        stack :=
          { f with phase := .processing, info := { f.info with privateOpQueue := [] } } :: rest }
  | .runOne => s.leave t rest

/-- The step labelled by an action, if it is enabled. -/
def step (s : State T E) : Action T E → Option (State T E)
  | .enter t e mode => if (s.threads t).isUserCode then some (s.enter t e mode) else none
  | .processNext t =>
    match (s.threads t).stack with
    | f :: rest => if f.phase = .processing then s.processNext t f rest else none
    | [] => none
  | .post t e op => if (s.threads t).isUserCode then s.post t ⟨e, op⟩ else none
  | .dispatch t e op => if (s.threads t).isUserCode then s.dispatch t ⟨e, op⟩ else none
  | .push t => (s.threads t).posting.map (s.push t)
  | .account t =>
    match (s.threads t).stack with
    | f :: rest => if (s.threads t).isUserCode then some (s.account t f rest) else none
    | [] => none
  | .relock t =>
    match (s.threads t).stack with
    | f :: rest => if f.phase = .accounted then some (s.relock t f rest) else none
    | [] => none
  | .stop t e =>
    if (s.threads t).isUserCode then
      some (s.setMembers e { s.executors e with stopRequested := true })
    else none
  | .restart t e =>
    if (s.threads t).isUserCode then
      some (s.setMembers e { s.executors e with stopRequested := false })
    else none

end State

/-- The executors as a machine: nothing is posted and every thread is outside. -/
def machine (T E : Type) [DecidableEq T] [DecidableEq E] :
    ToMathlib.Machine (State T E) (Action T E) where
  init s := s = {}
  step := State.step

end Asrt.Instances
