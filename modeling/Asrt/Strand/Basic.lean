import Mathlib.Data.Fintype.Basic
import Mathlib.Logic.Function.Basic
import Asrt.ToMathlib.Machine

/-!
# Strands over one executor

`Strand::Post()`, `Strand::Dispatch()` and `Strand::ExecutePendingJobs()` (`strand.ipp`,
`strand.hpp`) for any number of strands over one executor and any number of threads. Of the executor
the model keeps what strands depend on: the shared queue, the private queue of a thread inside
`Run()` and the order in which operations move between them.

A thread has a call stack. Strand code runs nested: a job may dispatch into a strand and so start a
job on top of itself. The marker of `ExecutionContext<Strand>` is a thread-local of the class, so
one marker per thread serves all strands.

A step is one critical section of a strand's mutex or of the executor's, with the thread-local code
around it. User code, which may call `Post()` and `Dispatch()`, runs outside the executor, in plain
jobs and in strand jobs.
-/

namespace Asrt.Strand

/-- An operation in a queue of the executor: a plain job, or the call of `ExecutePendingJobs()` that
`Strand::Post()` posts. -/
inductive Operation (S J : Type)
  | plain (job : J)
  | executePendingJobs (strand : S)
deriving DecidableEq, Repr

/-- `StrandInfo` -/
structure StrandInfo (J : Type) where
  /-- `jobs_` -/
  jobs : List J := []
  /-- `is_running_` -/
  isRunning : Bool := false
deriving DecidableEq, Repr

/-- A frame of a thread's call stack. -/
inductive Frame (S J : Type)
  /-- A plain job of the executor. -/
  | plain (job : J)
  /-- A job of a strand. -/
  | job (strand : S) (job : J)
  /-- The loop of `ExecutePendingJobs()`, between two jobs or below the running one. The executor
  calls it, or `Dispatch()` after the job it starts with. -/
  | draining (strand : S)
  /-- `Post()` of a strand that was not running, before `executor_.Post()`. -/
  | posting (strand : S)
deriving DecidableEq, Repr

/-- A thread that uses the executor. -/
structure Thread (S J : Type) where
  /-- `ExecutionContext<ThreadInfo>::IsInContext()`: the thread is inside `Run()`. -/
  isExecutorContext : Bool := false
  /-- `private_op_queue_` -/
  privateOpQueue : List (Operation S J) := []
  /-- `ExecutionContext<Strand>::context_marker_` -/
  contextMarker : Bool := false
  /-- The call stack above `Run()`, or above the thread's own code; innermost first. -/
  stack : List (Frame S J) := []
deriving DecidableEq, Repr

/-- The strands, the executor's shared queue and the threads. -/
structure State (T S J : Type) where
  strands : S → StrandInfo J := fun _ => {}
  /-- `operation_queue_` -/
  operationQueue : List (Operation S J) := []
  threads : T → Thread S J := fun _ => {}

/-- The steps of a thread. -/
inductive Action (T S J : Type)
  /-- Enter `Run()`. -/
  | enterRun (t : T)
  /-- Leave `Run()`. -/
  | leaveRun (t : T)
  /-- Take the first operation of the shared queue and call it. -/
  | take (t : T)
  /-- `executor.Post(job)` -/
  | postPlain (t : T) (job : J)
  /-- `strand.Post(job)`, up to the end of its critical section. -/
  | post (t : T) (strand : S) (job : J)
  /-- The `executor_.Post()` at the end of `Strand::Post()`. -/
  | postRunner (t : T)
  /-- `strand.Dispatch(job)`, up to the call of the job or the end of its critical section. -/
  | dispatch (t : T) (strand : S) (job : J)
  /-- One iteration of the loop of `ExecutePendingJobs()`. -/
  | next (t : T)
  /-- The innermost job returns. -/
  | finish (t : T)
deriving DecidableEq, Repr

namespace Thread

variable {S J : Type}

/-- User code is running: the thread's own code outside the executor, or a job. -/
def isUserCode (th : Thread S J) : Bool :=
  match th.stack with
  | [] => !th.isExecutorContext
  | .plain _ :: _ | .job _ _ :: _ => true
  | _ => false

end Thread

namespace State

variable {T S J : Type} [DecidableEq T] [DecidableEq S]

/-- Replace the state of one thread. -/
def setThread (σ : State T S J) (t : T) (th : Thread S J) : State T S J :=
  { σ with threads := Function.update σ.threads t th }

/-- Replace the members of one strand. -/
def setStrand (σ : State T S J) (s : S) (info : StrandInfo J) : State T S J :=
  { σ with strands := Function.update σ.strands s info }

/-- `executor.Post(op)`: inside `Run()` the operation goes to the thread's private queue. -/
def executorPost (σ : State T S J) (t : T) (op : Operation S J) : State T S J :=
  let th := σ.threads t
  if th.isExecutorContext then
    σ.setThread t { th with privateOpQueue := th.privateOpQueue ++ [op] }
  else { σ with operationQueue := σ.operationQueue ++ [op] }

/-- The innermost frame of thread `t` returns, with the thread as in `th` and the frames `rest`
below. If it was the operation the executor called, the private queue moves to the shared one. -/
def popFrame (σ : State T S J) (t : T) (th : Thread S J) (rest : List (Frame S J)) :
    State T S J :=
  if rest = [] ∧ th.isExecutorContext then
    { σ with operationQueue := σ.operationQueue ++ th.privateOpQueue }.setThread t
      { th with stack := rest, privateOpQueue := [] }
  else σ.setThread t { th with stack := rest }

/-- The critical section of `Strand::Post()`. -/
def post (σ : State T S J) (t : T) (s : S) (j : J) : State T S J :=
  let th := σ.threads t
  let info := σ.strands s
  let triggerRun := !info.isRunning
  let σ := σ.setStrand s { jobs := info.jobs ++ [j], isRunning := true }
  if triggerRun then σ.setThread t { th with stack := .posting s :: th.stack } else σ

/-- `Strand::Dispatch()` -/
def dispatch (σ : State T S J) (t : T) (s : S) (j : J) : State T S J :=
  let th := σ.threads t
  if !th.isExecutorContext then σ.post t s j
  else if th.contextMarker then
    -- `IsContinuation()`: the operation is invoked directly
    σ.setThread t { th with stack := .job s j :: th.stack }
  else
    let info := σ.strands s
    let executeNow := !info.isRunning
    if executeNow then
      (σ.setStrand s { info with isRunning := true }).setThread t
        { th with contextMarker := true, stack := .job s j :: .draining s :: th.stack }
    else σ.setStrand s { jobs := info.jobs ++ [j], isRunning := true }

/-- One iteration of `ExecutePendingJobs()`: run the first job, or clear `is_running_` and return,
with the marker reset. -/
def next (σ : State T S J) (t : T) (s : S) (rest : List (Frame S J)) : State T S J :=
  let th := σ.threads t
  match (σ.strands s).jobs with
  | j :: jobs =>
    (σ.setStrand s { σ.strands s with jobs }).setThread t
      { th with stack := .job s j :: .draining s :: rest }
  | [] =>
    (σ.setStrand s { σ.strands s with isRunning := false }).popFrame t
      { th with contextMarker := false } rest

/-- A worker takes the first operation and calls it; `ExecutePendingJobs()` sets the marker. -/
def take (σ : State T S J) (t : T) : Option (State T S J) :=
  let th := σ.threads t
  match σ.operationQueue with
  | [] => none
  | .plain j :: ops =>
    some ({ σ with operationQueue := ops }.setThread t { th with stack := [.plain j] })
  | .executePendingJobs s :: ops =>
    some ({ σ with operationQueue := ops }.setThread t
      { th with contextMarker := true, stack := [.draining s] })

/-- The step labelled by an action, if it is enabled. -/
def step (σ : State T S J) : Action T S J → Option (State T S J)
  | .enterRun t =>
    let th := σ.threads t
    if th.stack = [] ∧ !th.isExecutorContext then
      some (σ.setThread t { th with isExecutorContext := true })
    else none
  | .leaveRun t =>
    let th := σ.threads t
    if th.stack = [] ∧ th.isExecutorContext then
      some (σ.setThread t { th with isExecutorContext := false })
    else none
  | .take t =>
    let th := σ.threads t
    if th.stack = [] ∧ th.isExecutorContext then σ.take t else none
  | .postPlain t j =>
    if (σ.threads t).isUserCode then some (σ.executorPost t (.plain j)) else none
  | .post t s j => if (σ.threads t).isUserCode then some (σ.post t s j) else none
  | .postRunner t =>
    match (σ.threads t).stack with
    | .posting s :: rest =>
      some ((σ.setThread t { σ.threads t with stack := rest }).executorPost t
        (.executePendingJobs s))
    | _ => none
  | .dispatch t s j => if (σ.threads t).isUserCode then some (σ.dispatch t s j) else none
  | .next t =>
    match (σ.threads t).stack with
    | .draining s :: rest => some (σ.next t s rest)
    | _ => none
  | .finish t =>
    match (σ.threads t).stack with
    | .job _ _ :: rest | .plain _ :: rest => some (σ.popFrame t (σ.threads t) rest)
    | _ => none

end State

/-- The strands and their executor as a machine: every queue is empty and every thread outside. -/
def machine (T S J : Type) [DecidableEq T] [DecidableEq S] :
    ToMathlib.Machine (State T S J) (Action T S J) where
  init σ := σ = {}
  step := State.step

end Asrt.Strand
