import Asrt.Timer.Clients
import Asrt.Timer.Handlers

/-!
# Re-arming a waitable timer

A one-shot `BasicWaitableTimer` on a timer queue that others use as well. `WaitAsync()` sets
`async_wait_in_progress_` before it hands the timer to the queue, and `WaitAsync()`,
`ExpiresAfter()` and `ExpiresAt()` are refused while the flag is set. The wait ends in the queue,
where the handler is invoked, or at once if the queue refuses the timer. Neither resets the flag.

`ExpiresAt()` has no return statement where it accepts the expiry. What its caller finds there is an
argument of the step.

## Main definitions

* `State.waitAsync`: the timer and the queue in `WaitAsync()`.
* `machine`: the timer among the other users of the queue, as a machine.

## Main results

* `answers_iff`: the runs in which every call is refused exactly while a wait is pending.
-/

namespace Asrt.Timer

/-- The errors of a waitable timer: its own, and those of the timer queue. -/
inductive WaitError
  | asyncOperationInProgress
  | queue (ec : ErrorCode)
deriving DecidableEq, Repr

namespace Clients.WaitableTimer

/-- `ExpiresAfter()` -/
def expiresAfter (timer : WaitableTimer) (now duration : ℕ) :
    WaitableTimer × Except WaitError Unit :=
  if timer.asyncWaitInProgress then (timer, .error .asyncOperationInProgress)
  else ({ timer with expiry := now + duration }, .ok ())

/-- `ExpiresAt()`. It ends without a return statement; `unspecified` is what the caller finds. -/
def expiresAt (timer : WaitableTimer) (time : ℕ) (unspecified : Except WaitError Unit) :
    WaitableTimer × Except WaitError Unit :=
  if timer.asyncWaitInProgress then (timer, .error .asyncOperationInProgress)
  else ({ timer with expiry := time }, unspecified)

/-- `ExpiresAfter()` is refused exactly if the flag is set. -/
theorem expiresAfter_refused_iff (timer : WaitableTimer) (now duration : ℕ) :
    (timer.expiresAfter now duration).2 = .error .asyncOperationInProgress ↔
      timer.asyncWaitInProgress = true := by
  cases hflag : timer.asyncWaitInProgress with
  | true => simp [expiresAfter, hflag]
  | false => simp [expiresAfter, hflag]

/-- `ExpiresAt()` seems to be refused also if the caller finds the error by chance. -/
theorem expiresAt_refused_iff (timer : WaitableTimer) (time : ℕ)
    (unspecified : Except WaitError Unit) :
    (timer.expiresAt time unspecified).2 = .error .asyncOperationInProgress ↔
      timer.asyncWaitInProgress = true ∨ unspecified = .error .asyncOperationInProgress := by
  cases hflag : timer.asyncWaitInProgress with
  | true => simp [expiresAt, hflag]
  | false => simp [expiresAt, hflag]

end Clients.WaitableTimer

namespace Rearming

open Clients (WaitableTimer)

/-- Ghost: what has become of the wait. -/
inductive Wait
  /-- There was none. -/
  | none
  /-- `WaitAsync()` was successful, and the handler was not invoked yet. -/
  | pending
  /-- The handler was invoked, or the queue refused the timer. -/
  | over
deriving DecidableEq, Repr

/-- The timer and the queue. -/
structure State (H : Type) where
  queue : Handlers.State H
  timer : WaitableTimer
  /-- Ghost: the wait. -/
  wait : Wait := .none

/-- The steps. `now` is a reading of the clock and `settime` the outcome of `timerfd_settime()`. -/
inductive Action (H : Type)
  /-- `ExpiresAfter()` -/
  | expiresAfter (now duration : ℕ)
  /-- `ExpiresAt()` -/
  | expiresAt (time : ℕ) (unspecified : Except WaitError Unit)
  /-- `WaitAsync()` -/
  | waitAsync (now : ℕ) (settime : Bool)
  /-- A step of the queue that is not made for this timer's calls. -/
  | queue (a : Handlers.Action H)

namespace State

variable {H : Type}

/-- What `AddTimer()` returns in `WaitAsync()`. A zero-expiry timer is handled at once. -/
def added (σ : State H) (now : ℕ) (settime : Bool) : Except ErrorCode Unit :=
  if σ.timer.getNextExpiry now = 0 then .ok ()
  else
    (σ.queue.queue.doAddTimer σ.timer.timerId (σ.timer.getNextExpiry now) σ.timer.interval
      settime).2

/-- `WaitAsync()`, with its result. The flag is set before the queue has taken the timer. -/
def waitAsync (σ : State H) (now : ℕ) (settime : Bool) : State H × Except WaitError Unit :=
  if σ.timer.asyncWaitInProgress then (σ, .error .asyncOperationInProgress)
  else
    let timer := { σ.timer with asyncWaitInProgress := true }
    let queue := σ.queue.enqueue σ.timer.timerId (σ.timer.getNextExpiry now) σ.timer.interval
      settime
    -- an error of the queue is returned with the flag set
    match σ.added now settime with
    | .ok () => ({ queue, timer, wait := .pending }, .ok ())
    | .error ec => ({ queue, timer, wait := .over }, .error (.queue ec))

/-- The step of the queue is not one of this timer's calls. -/
def isForeign (σ : State H) : Handlers.Action H → Bool
  | .enqueue timer _ _ _ | .dequeue timer _ _ => timer ≠ σ.timer.timerId
  | _ => true

/-- The step of the queue invokes the handler of this timer. -/
def invokes (σ : State H) : Handlers.Action H → Bool
  | .call i _ => (σ.queue.expiries[i]?).any fun e => e.tag = σ.timer.timerId
  | _ => false

/-- The step labelled by an action, if it is enabled. -/
def step (σ : State H) : Action H → Option (State H)
  | .expiresAfter now duration =>
    some { σ with timer := (σ.timer.expiresAfter now duration).1 }
  | .expiresAt time unspecified =>
    some { σ with timer := (σ.timer.expiresAt time unspecified).1 }
  | .waitAsync now settime =>
    -- the queue's mutex is free
    if σ.queue.looping then none else some (σ.waitAsync now settime).1
  | .queue a =>
    if σ.isForeign a then
      (σ.queue.step a).map fun queue =>
        { σ with queue, wait := if σ.wait = .pending ∧ σ.invokes a then .over else σ.wait }
    else none

/-- The result of the call that the step makes. -/
def result (σ : State H) : Action H → Option (Except WaitError Unit)
  | .expiresAfter now duration => some (σ.timer.expiresAfter now duration).2
  | .expiresAt time unspecified => some (σ.timer.expiresAt time unspecified).2
  | .waitAsync now settime => some (σ.waitAsync now settime).2
  | .queue _ => none

end State

/-- The timer among the other users of the queue. It was constructed on any queue, with the tag that
was reserved for it. -/
def machine (H : Type) : ToMathlib.Machine (State H) (Action H) where
  init σ := ∃ queue handler timers tag period, (Handlers.machine H).Reachable queue ∧
    queue.looping = false ∧ queue.queue.reserve handler = (timers, .ok tag) ∧
    σ = { queue := queue.reserve handler, timer := { recurring := false, period, timerId := tag } }
  step := State.step

section

variable {H : Type} {σ σ' : State H} {a : Action H}

/-- The call of the step is refused as an operation in progress exactly if a wait is pending. -/
def Answers (σ : State H) (a : Action H) : Prop :=
  ∀ result ∈ σ.result a, result = .error .asyncOperationInProgress ↔ σ.wait = .pending

/-- The flag is set from the first wait on. -/
def FlagOk (σ : State H) : Prop := σ.timer.asyncWaitInProgress = decide (σ.wait ≠ .none)

/-- `WaitAsync()` starts the first wait, or is refused. -/
theorem waitAsync_cases (σ : State H) (now : ℕ) (settime : Bool) :
    (σ.timer.asyncWaitInProgress = true ∧
      σ.waitAsync now settime = (σ, .error .asyncOperationInProgress)) ∨
    (σ.timer.asyncWaitInProgress = false ∧
      (σ.waitAsync now settime).1.timer.asyncWaitInProgress = true ∧
      (σ.waitAsync now settime).1.wait ≠ .none ∧
      (σ.waitAsync now settime).2 ≠ .error .asyncOperationInProgress) := by
  cases hflag : σ.timer.asyncWaitInProgress with
  | true => exact .inl ⟨rfl, by simp [State.waitAsync, hflag]⟩
  | false =>
    refine .inr ⟨rfl, ?_⟩
    cases hadded : σ.added now settime with
    | ok _ => simp [State.waitAsync, hflag, hadded]
    | error ec => simp [State.waitAsync, hflag, hadded]

theorem waitAsync_refused_iff (σ : State H) (now : ℕ) (settime : Bool) :
    (σ.waitAsync now settime).2 = .error .asyncOperationInProgress ↔
      σ.timer.asyncWaitInProgress = true := by
  rcases waitAsync_cases σ now settime with ⟨hflag, heq⟩ | ⟨hflag, -, -, hne⟩
  · rw [heq]
    exact iff_of_true rfl hflag
  · exact iff_of_false hne (by simp [hflag])

/-- A step keeps the flag set once there was a wait. -/
theorem step_flagOk (h : FlagOk σ) (hσ' : (machine H).step σ a = some σ') : FlagOk σ' := by
  cases a with
  | expiresAfter now duration =>
    obtain rfl := Option.some.inj hσ'
    cases hflag : σ.timer.asyncWaitInProgress <;>
      simpa [FlagOk, WaitableTimer.expiresAfter, hflag] using h
  | expiresAt time unspecified =>
    obtain rfl := Option.some.inj hσ'
    cases hflag : σ.timer.asyncWaitInProgress <;>
      simpa [FlagOk, WaitableTimer.expiresAt, hflag] using h
  | waitAsync now settime =>
    obtain ⟨-, ⟨⟩⟩ := Option.ite_none_left_eq_some.mp hσ'
    rcases waitAsync_cases σ now settime with ⟨-, heq⟩ | ⟨-, hflag, hwait, -⟩
    · rw [heq]
      exact h
    · -- the wait is pending or over, the flag is set either way
      rw [FlagOk, hflag, decide_eq_true hwait]
  | queue a =>
    obtain ⟨-, hmap⟩ := Option.ite_none_right_eq_some.mp hσ'
    obtain ⟨queue, -, rfl⟩ := Option.map_eq_some_iff.mp hmap
    -- an invocation ends the wait, and the flag stays
    simp only [FlagOk] at h ⊢
    rw [h]
    split_ifs with hinvoked
    · simp [hinvoked.1]
    · rfl

/-- The call is not made after the wait has ended; and what `ExpiresAt()` leaves to its caller when
there was no wait is not taken for a refusal. -/
def InTime (σ : State H) : Action H → Prop
  | .expiresAfter _ _ | .waitAsync _ _ => σ.wait ≠ .over
  | .expiresAt _ unspecified => σ.wait ≠ .over ∧
    (σ.wait = .none → unspecified ≠ .error .asyncOperationInProgress)
  | .queue _ => True

/-- With the flag as it is, the answers are right exactly for the calls that come in time. -/
theorem FlagOk.answers_iff_inTime (h : FlagOk σ) (a : Action H) : Answers σ a ↔ InTime σ a := by
  have hflag : σ.timer.asyncWaitInProgress = true ↔ σ.wait ≠ .none := by
    rw [FlagOk] at h
    rw [h, decide_eq_true_iff]
  -- a call is refused by the flag; the two differ from the flag only where the wait is over
  cases a with
  | expiresAfter now duration =>
    simp only [Answers, State.result, Option.mem_some_iff, forall_eq',
      WaitableTimer.expiresAfter_refused_iff, hflag, InTime]
    cases σ.wait <;> simp
  | expiresAt time unspecified =>
    simp only [Answers, State.result, Option.mem_some_iff, forall_eq',
      WaitableTimer.expiresAt_refused_iff, hflag, InTime]
    cases σ.wait <;> simp
  | waitAsync now settime =>
    simp only [Answers, State.result, Option.mem_some_iff, forall_eq',
      waitAsync_refused_iff, hflag, InTime]
    cases σ.wait <;> simp
  | queue a => simp [Answers, InTime, State.result]

/-- Initially there was no wait. -/
theorem flagOk_of_init (hσ : (machine H).init σ) : FlagOk σ := by
  obtain ⟨queue, handler, timers, tag, period, -, -, -, rfl⟩ := hσ
  rfl

/-- In every run, every call is refused exactly while an earlier wait is pending if and only if no
call is made after a wait has ended. -/
theorem answers_iff (hσ : (machine H).init σ) (as : List (Action H)) :
    (machine H).Along (fun σ a _ => Answers σ a) σ as ↔
      (machine H).Along (fun σ a _ => InTime σ a) σ as :=
  ToMathlib.Machine.along_iff_of_invariant (flagOk_of_init hσ)
    (fun _ a _ h _ => h.answers_iff_inTime a) (fun _ _ _ h hσ' _ => step_flagOk h hσ')

end

/-- The timer on an empty queue, with the tag 0. -/
def initial (period : ℕ) : State Unit where
  queue := Handlers.State.reserve {} ()
  timer := { recurring := false, period, timerId := 0 }

theorem init_initial (period : ℕ) : (machine Unit).init (initial period) :=
  ⟨{}, (), _, 0, period, .init rfl, rfl, rfl, rfl⟩

/-- A new expiry before the first wait is accepted, and one after it is refused. -/
theorem answers_first_wait :
    (machine Unit).Along (fun σ a _ => Answers σ a) (initial 5)
      [.expiresAfter 3 4, .waitAsync 3 true, .expiresAfter 4 8] := by
  refine (answers_iff (init_initial 5) _).mpr ?_
  refine fun σ₁ h₁ => ⟨(by intro hover; cases hover), ?_⟩
  obtain rfl := Option.some.inj h₁
  refine fun σ₂ h₂ => ⟨(by intro hover; cases hover), ?_⟩
  obtain rfl := Option.some.inj h₂
  exact fun σ₃ h₃ => ⟨(by intro hover; cases hover), trivial⟩

/-- The timer expires and its handler returns, and the next wait is refused. -/
theorem not_answers_second_wait :
    ¬ (machine Unit).Along (fun σ a _ => Answers σ a) (initial 5)
      [.waitAsync 0 true, .queue .operation, .queue (.loop 5 true), .queue (.call 0 6),
        .queue (.finish 0), .queue (.loop 6 true), .waitAsync 7 true] := by
  intro h
  -- the first wait, the timer operation with its handler, and the end of the operation
  obtain ⟨-, h⟩ := h _ rfl
  obtain ⟨-, h⟩ := h _ rfl
  obtain ⟨-, h⟩ := h _ rfl
  obtain ⟨-, h⟩ := h _ rfl
  obtain ⟨-, h⟩ := h _ rfl
  obtain ⟨-, h⟩ := h _ rfl
  obtain ⟨hanswers, -⟩ := h _ rfl
  have hpending := (hanswers _ rfl).mp rfl
  cases hpending

end Rearming

end Asrt.Timer
