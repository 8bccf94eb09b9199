import Asrt.Executor.Basic
import Asrt.Timer.Queue

/-!
# The clients of the timer queue

The timer queue as its clients drive it: `BasicWaitableTimer` (`timer/basic_waitable_timer.hpp`) and
the timed tasks of the executor, `PostDeferred()`, `PostPeriodic()` and `CancelTimedJob()`
(`executor/io_executor.hpp`, `impl/io_executor.ipp`), together with the executor threads that run
timer operations. The timerfd is monitored level-triggered and never read, so a timer operation may
start at any time. What a callback does with the timers is a step like that of any other thread.

The ghost state records the tags that were reserved and not yet dequeued, the executor's jobs that
have nothing to do with timers, and, for each timer operation, the timers that it took out of the
queue. The completion of a timer operation is counted by the executor after the operation.
-/

namespace Asrt.Timer.Clients

/-- `TimedTaskType` -/
inductive TimedTaskType
  | kOnce
  | kRecurring
deriving DecidableEq, Repr

/-- The handlers that the clients register: that of a waitable timer, and those that
`MakeOneShotOperation()` and `MakePeriodicOperation()` make. -/
inductive Callback
  | waitable
  | task (type : TimedTaskType)
deriving DecidableEq, Repr

/-- `BasicWaitableTimer` -/
structure WaitableTimer where
  /-- `TimerModeType` is `kRecurring`. -/
  recurring : Bool
  /-- `period_` -/
  period : ℕ
  /-- `timer_id_` -/
  timerId : TimerTag
  /-- `expiry_` -/
  expiry : ℕ := 0
  /-- `async_wait_in_progress_` -/
  asyncWaitInProgress : Bool := false
deriving DecidableEq, Repr

namespace WaitableTimer

/-- `GetNextExpiry()` -/
def getNextExpiry (timer : WaitableTimer) (now : ℕ) : ℕ :=
  if 0 < timer.expiry then timer.expiry
  else if 0 < timer.period then now + timer.period
  else 0

/-- The interval that `WaitAsync()` asks for. -/
def interval (timer : WaitableTimer) : ℕ := if timer.recurring then timer.period else 0

end WaitableTimer

/-- Who made a call of `HandleOneExpiry()`. -/
inductive Origin
  /-- A timer operation; ghost: the number of timers it has taken out of the queue so far. -/
  | operation (fired : ℕ)
  /-- `WaitAsync()` of a zero-expiry timer. -/
  | wait
deriving DecidableEq, Repr

/-- A call of `HandleOneExpiry()` that has released the mutex. -/
structure Expiry where
  tag : TimerTag
  origin : Origin
  /-- `prev_expiry` -/
  prevExpiry : ℕ := 0
  /-- The callback that was invoked, once it was. -/
  callback : Option Callback := none
  /-- The callback of a one-shot task has called `RemoveTimedTaskAsync()`. -/
  removed : Bool := false
deriving DecidableEq, Repr

/-- A call of `StartTimedTaskAsync()` that has reserved its timer and not yet started it. -/
structure Starting where
  tag : TimerTag
  type : TimedTaskType
  period : ℕ
deriving DecidableEq, Repr

/-- The timer queue, its clients and the timer operations. -/
structure State where
  queue : TimerQueue Callback := {}
  /-- `periodic_job_ids_` -/
  periodicJobIds : List TimerTag := []
  /-- The waitable timers that exist. -/
  waitables : List WaitableTimer := []
  starting : Option Starting := none
  expiries : List Expiry := []
  /-- The loop of a `HandleExpiry()` holds the queue's mutex; ghost: what it has fired so far. -/
  looping : Option ℕ := none
  /-- The timer operations that have returned and whose completion is not counted yet. -/
  completions : ℕ := 0
  /-- `job_count_` -/
  jobCount : ℕ := 0
  /-- Ghost: the tags that were reserved and not yet dequeued. -/
  live : List TimerTag := []
  /-- Ghost: the executor's other jobs. -/
  otherJobs : ℕ := 0

/-- The steps. `now` is a reading of the clock, `settime` the outcome of `timerfd_settime()` and
`stale` what the front of the empty queue holds. -/
inductive Action
  /-- The constructor of a waitable timer. -/
  | construct (recurring : Bool) (period : ℕ)
  /-- `ExpiresAfter()` and `ExpiresAt()` of the waitable timer at a position. -/
  | expiresAt (i time : ℕ)
  /-- `WaitAsync()` -/
  | waitAsync (i now : ℕ) (settime : Bool)
  /-- The destructor of a waitable timer. -/
  | destroy (i : ℕ) (settime : Bool) (stale : TimerTag)
  /-- `PostDeferred()` and `PostPeriodic()` up to `RegisterTimedTask()`; `immediate` is the mode
  `kImmediate` of `PostPeriodic()`. -/
  | post (type : TimedTaskType) (period : ℕ) (immediate : Bool)
  /-- The rest of `StartTimedTaskAsync()`. -/
  | start (now : ℕ) (settime : Bool)
  /-- `CancelTimedJob()` -/
  | cancel (task : TimerTag) (settime : Bool) (stale : TimerTag)
  /-- A timer operation enters `HandleExpiry()`. -/
  | operation
  /-- The loop of `HandleExpiry()` starts to handle the next timer, or ends. -/
  | loop (now : ℕ) (settime : Bool)
  /-- The expiry at a position invokes its callback. -/
  | call (i now : ℕ)
  /-- The callback of a one-shot task calls `RemoveTimedTaskAsync()` after the task. -/
  | remove (i : ℕ) (settime : Bool) (stale : TimerTag)
  /-- The callback of the expiry at a position returns, and `HandleOneExpiry()` ends. -/
  | finish (i : ℕ)
  /-- The executor counts the completion of a timer operation. -/
  | complete
  /-- A job that is not a timer arrives. -/
  | otherArrival
  /-- A job that is not a timer is completed. -/
  | otherCompletion
deriving DecidableEq, Repr

namespace State

/-- `OnJobArrival()` -/
def onJobArrival (σ : State) : State :=
  { σ with jobCount := Executor.fetchAdd σ.jobCount 1 }

/-- `OnJobCompletion()`, as far as the counter is concerned. -/
def onJobCompletion (σ : State) : State :=
  { σ with jobCount := Executor.fetchSub σ.jobCount 1 }

/-- An arrival increments the counter while the jobs fit. -/
theorem onJobArrival_eq {σ : State} (h : σ.jobCount + 1 < 2 ^ 32) :
    σ.onJobArrival = { σ with jobCount := σ.jobCount + 1 } := by
  simp only [onJobArrival, Executor.fetchAdd_eq h]

/-- A completion decrements a positive counter. -/
theorem onJobCompletion_eq {σ : State} (hpos : 0 < σ.jobCount) (hlt : σ.jobCount < 2 ^ 32) :
    σ.onJobCompletion = { σ with jobCount := σ.jobCount - 1 } := by
  simp only [onJobCompletion, Executor.fetchSub_one hpos hlt]

/-- `Reserve()`, with the tag if there is one. -/
def reserve (σ : State) (callback : Callback) : State × Option TimerTag :=
  match σ.queue.reserve callback with
  | (queue, .ok tag) => ({ σ with queue, live := tag :: σ.live }, some tag)
  | (queue, .error _) => ({ σ with queue }, none)

/-- `Dequeue()` -/
def dequeue (σ : State) (timer : TimerTag) (settime : Bool) (stale : TimerTag) : State :=
  { σ with
    queue := (σ.queue.dequeue timer settime stale).1
    live := σ.live.erase timer }

/-- `RemoveTimedTaskAsync()`. `QuickRemoveOne()` asserts that the id is in the vector; without
assertions it drops the last element if it is not. -/
def removeTimedTaskAsync (σ : State) (task : TimerTag) (settime : Bool) (stale : TimerTag) :
    State :=
  { σ with
    periodicJobIds :=
      if task ∈ σ.periodicJobIds then ToMathlib.swapRemove (· = task) σ.periodicJobIds
      else σ.periodicJobIds.dropLast }.dequeue task settime stale

/-- `HandleOneExpiry()` up to the release of the mutex. -/
def beginExpiry (σ : State) (tag : TimerTag) (origin : Origin) : State :=
  { σ with
    queue := σ.queue.beginOneExpiry tag
    expiries := { tag, origin } :: σ.expiries }

/-- `WaitAsync()` of the given timer, which is at position `i`. A zero-expiry timer is handled at
once, and the job is announced afterwards. -/
def waitAsync (σ : State) (i : ℕ) (timer : WaitableTimer) (now : ℕ) (settime : Bool) : State :=
  if timer.asyncWaitInProgress then σ
  else
    let expiry := timer.getNextExpiry now
    let σ := { σ with waitables := σ.waitables.set i { timer with asyncWaitInProgress := true } }
    if expiry = 0 then σ.beginExpiry timer.timerId .wait
    else
      match σ.queue.doAddTimer timer.timerId expiry timer.interval settime with
      | (queue, .ok ()) => { σ with queue }.onJobArrival
      | (queue, .error _) => { σ with queue }

/-- `PostDeferred()` and `PostPeriodic()` up to `RegisterTimedTask()`. -/
def post (σ : State) (type : TimedTaskType) (period : ℕ) (immediate : Bool) : State :=
  -- the immediate execution is a job of its own
  let σ := if immediate then { σ with otherJobs := σ.otherJobs + 1 }.onJobArrival else σ
  match σ.reserve (.task type) with
  | (σ, some tag) => { σ with starting := some ⟨tag, type, period⟩ }
  | (σ, none) => σ

/-- `StartTimedTaskAsync()` after its timer was reserved. -/
def startTimedTaskAsync (σ : State) (task : Starting) (now : ℕ) (settime : Bool) : State :=
  let interval := if task.type = .kRecurring then task.period else 0
  match σ.queue.doAddTimer task.tag (now + task.period) interval settime with
  | (queue, .ok ()) =>
    { σ with
      queue
      starting := none
      periodicJobIds := σ.periodicJobIds ++ [task.tag] }.onJobArrival
  | (queue, .error _) => { σ with queue, starting := none }

/-- `CancelTimedJob()` -/
def cancelTimedJob (σ : State) (task : TimerTag) (settime : Bool) (stale : TimerTag) : State :=
  if task ∉ σ.periodicJobIds then σ
  else
    let removed := σ.removeTimedTaskAsync task settime stale
    match (σ.queue.dequeue task settime stale).2 with
    | .ok () => removed.onJobCompletion
    | .error _ => removed

/-- One turn of the loop of `HandleExpiry()`, which has fired the given number of timers. -/
def loop (σ : State) (fired now : ℕ) (settime : Bool) : State :=
  match σ.queue.nextExpired now with
  | some tag => { σ with looping := none }.beginExpiry tag (.operation fired)
  | none =>
    let ended :=
      { σ with
        looping := none
        queue := σ.queue.primeTimerFd settime
        completions := σ.completions + 1 }
    if σ.queue.queuedTimers = [] then ended else ended.onJobArrival

/-- The origin of an expiry after a step that may have taken timers out of the queue. -/
def countFired (σ σ' : State) : Origin → Origin
  | .operation fired =>
    .operation (fired + (σ.queue.queuedTimers.length - σ'.queue.queuedTimers.length))
  | .wait => .wait

/-- The end of the expiry `e`, which is at position `i`. `WaitAsync()` announces its job when the
handling of its zero-expiry timer has returned. -/
def finishExpiry (σ : State) (i : ℕ) (e : Expiry) : State :=
  let σ' :=
    { σ with
      queue := σ.queue.endOneExpiry e.tag e.prevExpiry
      expiries := σ.expiries.eraseIdx i }
  match countFired σ σ' e.origin with
  | .operation fired => { σ' with looping := some fired }
  | .wait => σ'.onJobArrival

/-- The step labelled by an action, if it is enabled. Steps that need the queue's mutex wait for the
loop of `HandleExpiry()`. A waitable timer that cannot be registered ends the program, and so does
the call of an empty handler. A post holds the executor's mutex until its timer is started. -/
def step (σ : State) : Action → Option State
  | .construct recurring period =>
    if σ.looping.isSome then none
    else
      match σ.reserve .waitable with
      | (σ, some timerId) =>
        some { σ with waitables := σ.waitables ++ [{ recurring, period, timerId }] }
      | (_, none) => none
  | .expiresAt i time =>
    σ.waitables[i]?.map fun timer =>
      if timer.asyncWaitInProgress then σ
      else { σ with waitables := σ.waitables.set i { timer with expiry := time } }
  | .waitAsync i now settime =>
    if σ.looping.isSome then none
    else σ.waitables[i]?.map fun timer => σ.waitAsync i timer now settime
  | .destroy i settime stale =>
    if σ.looping.isSome then none
    else σ.waitables[i]?.map fun timer =>
      { σ with waitables := σ.waitables.eraseIdx i }.dequeue timer.timerId settime stale
  | .post type period immediate =>
    if σ.looping.isSome ∨ σ.starting.isSome then none else some (σ.post type period immediate)
  | .start now settime =>
    -- the clock has been running for a while
    if σ.looping.isSome ∨ now = 0 then none
    else σ.starting.map fun task => σ.startTimedTaskAsync task now settime
  | .cancel task settime stale =>
    if σ.looping.isSome then none else some (σ.cancelTimedJob task settime stale)
  | .operation => if σ.looping.isSome then none else some { σ with looping := some 0 }
  | .loop now settime => σ.looping.map fun fired => σ.loop fired now settime
  | .call i now =>
    match σ.expiries[i]? with
    | some e =>
      if e.callback.isNone ∧ (σ.queue.timers e.tag).handler.isSome then
        let called := { e with prevExpiry := now, callback := (σ.queue.timers e.tag).handler }
        some { σ with expiries := σ.expiries.set i called }
      else none
    | none => none
  | .remove i settime stale =>
    match σ.expiries[i]? with
    | some e =>
      if σ.looping.isNone ∧ e.callback = some (.task .kOnce) ∧ !e.removed then
        let σ' := σ.removeTimedTaskAsync e.tag settime stale
        let removed := { e with removed := true, origin := countFired σ σ' e.origin }
        some { σ' with expiries := σ'.expiries.set i removed }
      else none
    | none => none
  | .finish i =>
    match σ.expiries[i]? with
    | some e =>
      if σ.looping.isNone ∧ e.callback.isSome ∧
          (e.callback = some (.task .kOnce) → e.removed) then
        some (σ.finishExpiry i e)
      else none
    | none => none
  | .complete =>
    if 0 < σ.completions then some { σ with completions := σ.completions - 1 }.onJobCompletion
    else none
  | .otherArrival => some { σ with otherJobs := σ.otherJobs + 1 }.onJobArrival
  | .otherCompletion =>
    if 0 < σ.otherJobs then some { σ with otherJobs := σ.otherJobs - 1 }.onJobCompletion else none

/-- What the enabled steps do, one case for each. A step that needs the queue's mutex finds no loop
of `HandleExpiry()` under way. -/
inductive Transition (σ : State) : Action → State → Prop
  | construct {recurring : Bool} {period : ℕ} {timerId : TimerTag} {σ' : State}
      (hlooping : σ.looping = none) (hreserve : σ.reserve .waitable = (σ', some timerId)) :
      Transition σ (.construct recurring period)
        { σ' with waitables := σ'.waitables ++ [{ recurring, period, timerId }] }
  | expiresAtRefused {i time : ℕ} {timer : WaitableTimer} (hi : σ.waitables[i]? = some timer)
      (hwait : timer.asyncWaitInProgress = true) : Transition σ (.expiresAt i time) σ
  | expiresAt {i time : ℕ} {timer : WaitableTimer} (hi : σ.waitables[i]? = some timer)
      (hwait : timer.asyncWaitInProgress = false) :
      Transition σ (.expiresAt i time)
        { σ with waitables := σ.waitables.set i { timer with expiry := time } }
  | waitAsync {i now : ℕ} {settime : Bool} {timer : WaitableTimer} (hlooping : σ.looping = none)
      (hi : σ.waitables[i]? = some timer) :
      Transition σ (.waitAsync i now settime) (σ.waitAsync i timer now settime)
  | destroy {i : ℕ} {settime : Bool} {stale : TimerTag} {timer : WaitableTimer}
      (hlooping : σ.looping = none) (hi : σ.waitables[i]? = some timer) :
      Transition σ (.destroy i settime stale)
        ({ σ with waitables := σ.waitables.eraseIdx i }.dequeue timer.timerId settime stale)
  | post {type : TimedTaskType} {period : ℕ} {immediate : Bool} (hlooping : σ.looping = none)
      (hstarting : σ.starting = none) :
      Transition σ (.post type period immediate) (σ.post type period immediate)
  | start {now : ℕ} {settime : Bool} {task : Starting} (hlooping : σ.looping = none)
      (hnow : now ≠ 0) (htask : σ.starting = some task) :
      Transition σ (.start now settime) (σ.startTimedTaskAsync task now settime)
  | cancel {task : TimerTag} {settime : Bool} {stale : TimerTag} (hlooping : σ.looping = none) :
      Transition σ (.cancel task settime stale) (σ.cancelTimedJob task settime stale)
  | operation (hlooping : σ.looping = none) :
      Transition σ .operation { σ with looping := some 0 }
  | loop {now fired : ℕ} {settime : Bool} (hlooping : σ.looping = some fired) :
      Transition σ (.loop now settime) (σ.loop fired now settime)
  | call {i now : ℕ} {e : Expiry} (hi : σ.expiries[i]? = some e)
      (hready : e.callback.isNone ∧ (σ.queue.timers e.tag).handler.isSome) :
      Transition σ (.call i now)
        { σ with
          expiries := σ.expiries.set i
            { e with prevExpiry := now, callback := (σ.queue.timers e.tag).handler } }
  | remove {i : ℕ} {settime : Bool} {stale : TimerTag} {e : Expiry}
      (hi : σ.expiries[i]? = some e)
      (hready : σ.looping.isNone ∧ e.callback = some (.task .kOnce) ∧ !e.removed) :
      Transition σ (.remove i settime stale)
        { σ.removeTimedTaskAsync e.tag settime stale with
          expiries := σ.expiries.set i
            { e with
              removed := true
              origin := countFired σ (σ.removeTimedTaskAsync e.tag settime stale) e.origin } }
  | finish {i : ℕ} {e : Expiry} (hi : σ.expiries[i]? = some e)
      (hready : σ.looping.isNone ∧ e.callback.isSome ∧
        (e.callback = some (.task .kOnce) → e.removed)) :
      Transition σ (.finish i) (σ.finishExpiry i e)
  | complete (hpos : 0 < σ.completions) :
      Transition σ .complete { σ with completions := σ.completions - 1 }.onJobCompletion
  | otherArrival :
      Transition σ .otherArrival { σ with otherJobs := σ.otherJobs + 1 }.onJobArrival
  | otherCompletion (hpos : 0 < σ.otherJobs) :
      Transition σ .otherCompletion { σ with otherJobs := σ.otherJobs - 1 }.onJobCompletion

/-- A step is one of the transitions. -/
theorem transition_of_step {σ σ' : State} {a : Action} (hσ' : σ.step a = some σ') :
    σ.Transition a σ' := by
  -- the mutex of the queue is free
  have hfree (h : ¬ σ.looping.isSome = true) : σ.looping = none := by simpa using h
  cases a with
  | construct recurring period =>
    obtain ⟨hlooping, hσ'⟩ := Option.ite_none_left_eq_some.mp hσ'
    split at hσ'
    · rename_i hreserve
      obtain rfl := Option.some.inj hσ'
      exact .construct (hfree hlooping) hreserve
    · cases hσ'
  | expiresAt i time =>
    obtain ⟨timer, hi, rfl⟩ := Option.map_eq_some_iff.mp hσ'
    split
    · rename_i hwait
      exact .expiresAtRefused hi hwait
    · rename_i hwait
      exact .expiresAt hi (Bool.eq_false_iff.mpr hwait)
  | waitAsync i now settime =>
    obtain ⟨hlooping, hσ'⟩ := Option.ite_none_left_eq_some.mp hσ'
    obtain ⟨timer, hi, rfl⟩ := Option.map_eq_some_iff.mp hσ'
    exact .waitAsync (hfree hlooping) hi
  | destroy i settime stale =>
    obtain ⟨hlooping, hσ'⟩ := Option.ite_none_left_eq_some.mp hσ'
    obtain ⟨timer, hi, rfl⟩ := Option.map_eq_some_iff.mp hσ'
    exact .destroy (hfree hlooping) hi
  | post type period immediate =>
    obtain ⟨hnot, hσ'⟩ := Option.ite_none_left_eq_some.mp hσ'
    obtain rfl := Option.some.inj hσ'
    rw [not_or] at hnot
    exact .post (hfree hnot.1) (by simpa using hnot.2)
  | start now settime =>
    obtain ⟨hnot, hσ'⟩ := Option.ite_none_left_eq_some.mp hσ'
    obtain ⟨task, htask, rfl⟩ := Option.map_eq_some_iff.mp hσ'
    rw [not_or] at hnot
    exact .start (hfree hnot.1) hnot.2 htask
  | cancel task settime stale =>
    obtain ⟨hlooping, hσ'⟩ := Option.ite_none_left_eq_some.mp hσ'
    obtain rfl := Option.some.inj hσ'
    exact .cancel (hfree hlooping)
  | operation =>
    obtain ⟨hlooping, hσ'⟩ := Option.ite_none_left_eq_some.mp hσ'
    obtain rfl := Option.some.inj hσ'
    exact .operation (hfree hlooping)
  | loop now settime =>
    obtain ⟨fired, hlooping, rfl⟩ := Option.map_eq_some_iff.mp hσ'
    exact .loop hlooping
  | call i now =>
    simp only [State.step] at hσ'
    split at hσ'
    · rename_i e hi
      obtain ⟨hready, hσ'⟩ := Option.ite_none_right_eq_some.mp hσ'
      obtain rfl := Option.some.inj hσ'
      exact .call hi hready
    · cases hσ'
  | remove i settime stale =>
    simp only [State.step] at hσ'
    split at hσ'
    · rename_i e hi
      obtain ⟨hready, hσ'⟩ := Option.ite_none_right_eq_some.mp hσ'
      obtain rfl := Option.some.inj hσ'
      exact .remove hi hready
    · cases hσ'
  | finish i =>
    simp only [State.step] at hσ'
    split at hσ'
    · rename_i e hi
      obtain ⟨hready, hσ'⟩ := Option.ite_none_right_eq_some.mp hσ'
      obtain rfl := Option.some.inj hσ'
      exact .finish hi hready
    · cases hσ'
  | complete =>
    obtain ⟨hpos, hσ'⟩ := Option.ite_none_right_eq_some.mp hσ'
    obtain rfl := Option.some.inj hσ'
    exact .complete hpos
  | otherArrival =>
    obtain rfl := Option.some.inj hσ'
    exact .otherArrival
  | otherCompletion =>
    obtain ⟨hpos, hσ'⟩ := Option.ite_none_right_eq_some.mp hσ'
    obtain rfl := Option.some.inj hσ'
    exact .otherCompletion hpos

end State

/-- The clients as a machine: no timer exists, and the executor has any jobs that fit its
counter. -/
def machine : ToMathlib.Machine State Action where
  init σ := ∃ jobs < 2 ^ 32, σ = { jobCount := jobs, otherJobs := jobs }
  step := State.step

end Asrt.Timer.Clients
