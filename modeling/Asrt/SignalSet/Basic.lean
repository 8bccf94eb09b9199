import Asrt.ToMathlib.Machine
import Mathlib.Data.List.Perm.Basic
import Mathlib.Data.List.Range

/-!
# Signal sets

`BasicSignalSet` (`signalset/basic_signalset.hpp`, `impl/basic_signalset.ipp`): `WaitAsync()` and
`Cancel()` with the reactor's notifications, and the executor threads that run what is queued.

The handlers are numbered by the calls of `WaitAsync()`. `OnReactorEvent()` passes the stored
handler on by reference: it releases the mutex and only then calls what `wait_completion_handler_`
holds, so the release and the call are two steps here. Calls of `WaitAsync()` and `Cancel()`, by any
thread or by the handlers, and notifications may come between any two steps.
-/

namespace Asrt.SignalSet

/-- The error codes that concern a wait. -/
inductive ErrorCode
  | wouldBlock
  /-- Any other error of `read()`. -/
  | readError
  | readInsufficientData
  | operationCancelled
  | asyncOperationInProgress
deriving DecidableEq, Repr

/-- `ErrorCode_Ns::IsBusy()` -/
def ErrorCode.isBusy : ErrorCode → Bool
  | wouldBlock => true
  | _ => false

/-- What `read()` on the signal descriptor returns: a `signalfd_siginfo` with the number of a
signal, fewer bytes, `EAGAIN` or another error. -/
inductive ReadResult
  | signal (signo : ℕ)
  | short
  | wouldBlock
  | error
deriving DecidableEq, Repr

/-- What a handler is called with: the number of a signal or an error. -/
abbrev WaitResult := Except ErrorCode ℕ

/-- `DoReadSignalsSync()` -/
def doReadSignalsSync : ReadResult → WaitResult
  | .signal signo => .ok signo
  | .short => .error .readInsufficientData
  | .wouldBlock => .error .wouldBlock
  | .error => .error .readError

/-- The read was not possible without blocking. -/
def isBusy : WaitResult → Bool
  | .ok _ => false
  | .error ec => ec.isBusy

/-- Where `OnReactorEvent()` is. -/
inductive Handling
  /-- It is not executing. -/
  | idle
  /-- It has released the mutex to call the handler. -/
  | calling (res : WaitResult)
  /-- The handler runs. -/
  | callback
deriving DecidableEq, Repr

/-- `BasicSignalSet` -/
structure BasicSignalSet where
  /-- `is_wait_ongoing_` -/
  isWaitOngoing : Bool := false
  /-- `speculative_read_` -/
  speculativeRead : Bool := false
  /-- `wait_completion_handler_` -/
  waitCompletionHandler : Option ℕ := none
  handling : Handling := .idle
  /-- The calls of handlers that are queued with the executor. -/
  jobs : List (Option ℕ × WaitResult) := []
  /-- Ghost: how often `WaitAsync()` was called. -/
  waits : ℕ := 0
  /-- Ghost: the handlers that were called, with their results. -/
  invoked : List (ℕ × WaitResult) := []
deriving DecidableEq, Repr

/-- The calls of the clients, the notifications of the reactor and the steps of the executor. `read`
is the outcome of `read()`, for calls that get that far. -/
inductive Action
  /-- `WaitAsync()` -/
  | waitAsync (read : ReadResult)
  /-- `Cancel()` -/
  | cancel
  /-- The reactor calls `OnReactorEvent()`. -/
  | event (read : ReadResult)
  /-- `OnReactorEvent()` calls the handler. -/
  | call
  /-- The handler that `OnReactorEvent()` has called returns. -/
  | returns
  /-- An executor thread runs one of the queued calls. -/
  | runJob (i : ℕ)
deriving DecidableEq, Repr

namespace BasicSignalSet

/-- `EnqueueOnJobArrival()` and `EnqueuePostJobArrival()` of the call of a handler. -/
def enqueue (σ : BasicSignalSet) (handler : Option ℕ) (res : WaitResult) : BasicSignalSet :=
  { σ with jobs := σ.jobs ++ [(handler, res)] }

/-- `DoReadSignalsAsync()`. The wait is left to the reactor, unless a read is tried and does not
block. -/
def doReadSignalsAsync (σ : BasicSignalSet) (completionCallback : Option ℕ) (read : ReadResult)
    (onImmediateCompletion : BasicSignalSet → WaitResult → BasicSignalSet) : BasicSignalSet :=
  let readResult := doReadSignalsSync read
  let asyncNeeded := !σ.speculativeRead || isBusy readResult
  let σ := { σ with speculativeRead := false }
  if asyncNeeded then
    { σ with isWaitOngoing := true, waitCompletionHandler := completionCallback }
  else onImmediateCompletion σ readResult

/-- `WaitAsync()` -/
def waitAsync (σ : BasicSignalSet) (read : ReadResult) : BasicSignalSet :=
  let signalHandler := σ.waits
  let σ := { σ with waits := σ.waits + 1 }
  if σ.isWaitOngoing then σ.enqueue (some signalHandler) (.error .asyncOperationInProgress)
  else σ.doReadSignalsAsync (some signalHandler) read fun σ res =>
    σ.enqueue (some signalHandler) res

/-- `Cancel()`. The stored handler is moved into the queued call; the removal of the monitored event
does not fail, since the set is registered as long as it exists. -/
def cancel (σ : BasicSignalSet) : BasicSignalSet :=
  if σ.isWaitOngoing then
    { σ with waitCompletionHandler := none }.enqueue σ.waitCompletionHandler
      (.error .operationCancelled)
  else σ

/-- `OnReactorEvent()` up to the release of the mutex. -/
def onReactorEvent (σ : BasicSignalSet) (read : ReadResult) : BasicSignalSet :=
  let σ := { σ with speculativeRead := true }
  if σ.isWaitOngoing then
    σ.doReadSignalsAsync σ.waitCompletionHandler read fun σ res =>
      { σ with isWaitOngoing := false, handling := .calling res }
  -- the event is ignored, and the next wait tries to read at once
  else σ

/-- A handler is called. Calling an empty handler ends the program. -/
def invoke (σ : BasicSignalSet) (handler : Option ℕ) (res : WaitResult) : Option BasicSignalSet :=
  handler.map fun h => { σ with invoked := σ.invoked ++ [(h, res)] }

/-- The step labelled by an action, if it is enabled. The reactor does not call `OnReactorEvent()`
while it executes. -/
def step (σ : BasicSignalSet) : Action → Option BasicSignalSet
  | .waitAsync read => some (σ.waitAsync read)
  | .cancel => some σ.cancel
  | .event read => if σ.handling = .idle then some (σ.onReactorEvent read) else none
  | .call =>
    match σ.handling with
    | .calling res => { σ with handling := .callback }.invoke σ.waitCompletionHandler res
    | _ => none
  | .returns => if σ.handling = .callback then some { σ with handling := .idle } else none
  | .runJob i =>
    match σ.jobs[i]? with
    | some job => { σ with jobs := σ.jobs.eraseIdx i }.invoke job.1 job.2
    | none => none

/-- The signal set as a machine, from its construction on. -/
def machine : ToMathlib.Machine BasicSignalSet Action where
  init σ := σ = {}
  step := step

end BasicSignalSet

end Asrt.SignalSet
