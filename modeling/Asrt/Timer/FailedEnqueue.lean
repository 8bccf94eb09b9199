import Asrt.Timer.Clients

/-!
# What a failed `Enqueue()` leaves behind

`DoAddTimer()` changes the entry of the timer, programs the timerfd if the timer expires first, and
then queues the timer, whatever `timerfd_settime()` has returned. `WaitAsync()` and
`StartTimedTaskAsync()` take an error to mean that the timer was not started, and announce no job.
-/

namespace Asrt.Timer.Clients

namespace State

variable {σ : State} {timer : TimerTag} {expiry interval : ℕ} {settime : Bool}

/-- `Enqueue()` of a timer with an expiry. -/
def enqueue (σ : State) (timer : TimerTag) (expiry interval : ℕ) (settime : Bool) :
    State × Except ErrorCode Unit :=
  let (queue, result) := σ.queue.doAddTimer timer expiry interval settime
  ({ σ with queue }, result)

/-- The queue, the entry of the timer and the number of jobs are as they were. -/
structure NoTrace (σ σ' : State) (timer : TimerTag) : Prop where
  queuedTimers : σ'.queue.queuedTimers = σ.queue.queuedTimers
  expiry : (σ'.queue.timers timer).expiry = (σ.queue.timers timer).expiry
  interval : (σ'.queue.timers timer).interval = (σ.queue.timers timer).interval
  isValid : (σ'.queue.timers timer).isValid = (σ.queue.timers timer).isValid
  jobCount : σ'.jobCount = σ.jobCount

/-- A timer that expires as late as the front of the queue does not need the timerfd. -/
def ExpiresBehind (σ : State) (expiry : ℕ) : Prop :=
  ∃ front ∈ σ.queue.queuedTimers.head?, front.expiry ≤ expiry

/-- `Enqueue()` fails exactly if the timer expires before all others and the timerfd cannot be
programmed. -/
theorem enqueue_eq_ok_iff (timer : TimerTag) (interval : ℕ) :
    (σ.enqueue timer expiry interval settime).2 = .ok () ↔
      settime = true ∨ σ.ExpiresBehind expiry := by
  -- the entry is written first, which the comparison with the front does not see
  have hnext : ∀ entry, (σ.queue.setTimer timer entry).isNextExpiry expiry =
      σ.queue.isNextExpiry expiry := fun _ => rfl
  have hbehind : σ.ExpiresBehind expiry ↔ σ.queue.isNextExpiry expiry = false := by
    unfold ExpiresBehind TimerQueue.isNextExpiry
    cases σ.queue.queuedTimers with
    | nil => simp
    | cons front rest => simp
  rw [hbehind]
  simp only [enqueue, TimerQueue.doAddTimer, hnext]
  cases σ.queue.isNextExpiry expiry with
  | false => simp
  | true =>
    cases settime with
    | true => simp [TimerQueue.updateTimerFd]
    | false => simp [TimerQueue.updateTimerFd]

/-- Every `Enqueue()` leaves the timer in the queue. -/
theorem not_noTrace_enqueue (σ : State) (timer : TimerTag) (expiry interval : ℕ) (settime : Bool) :
    ¬ σ.NoTrace (σ.enqueue timer expiry interval settime).1 timer := by
  intro h
  -- the queue has one more timer, whether `Enqueue()` fails or not
  have hlen := σ.queue.doAddTimer_length timer expiry interval settime
  have hsame := congrArg List.length h.queuedTimers
  simp only [enqueue] at hsame
  omega

/-- `StartTimedTaskAsync()` announces no job for a timer that could not be enqueued. -/
theorem startTimedTaskAsync_jobCount {task : Starting} {now : ℕ}
    (h : (σ.queue.doAddTimer task.tag (now + task.period)
      (if task.type = .kRecurring then task.period else 0) settime).2 ≠ .ok ()) :
    (σ.startTimedTaskAsync task now settime).jobCount = σ.jobCount := by
  simp only [startTimedTaskAsync]
  split
  · rename_i heq
    rw [heq] at h
    exact absurd rfl h
  · rfl

/-- Nor does `WaitAsync()`. -/
theorem waitAsync_jobCount {i now : ℕ} {timer : WaitableTimer}
    (h : (σ.queue.doAddTimer timer.timerId (timer.getNextExpiry now) timer.interval settime).2 ≠
      .ok ()) : (σ.waitAsync i timer now settime).jobCount = σ.jobCount := by
  simp only [waitAsync]
  split
  · rfl
  · split
    · rfl
    · split
      · rename_i heq
        rw [heq] at h
        exact absurd rfl h
      · rfl

end State

/-- A failed `Enqueue()` leaves no trace exactly if it cannot fail: the timerfd can be programmed,
or an earlier timer is at the front. -/
theorem failed_enqueue_iff (σ : State) (timer : TimerTag) (expiry interval : ℕ) (settime : Bool) :
    ((σ.enqueue timer expiry interval settime).2 ≠ .ok () →
        σ.NoTrace (σ.enqueue timer expiry interval settime).1 timer) ↔
      (settime = true ∨ σ.ExpiresBehind expiry) := by
  have hnever := σ.not_noTrace_enqueue timer expiry interval settime
  rw [← State.enqueue_eq_ok_iff timer interval]
  constructor
  · intro h
    by_contra herror
    exact hnever (h herror)
  · intro hok herror
    exact absurd hok herror

/-- The first timer cannot be started, but it is in the queue. A task for which this happens is
executed all the same, and the completion of the timer operation is counted against the one job of
the executor, which is still outstanding. -/
theorem failed_enqueue_fires_later :
    (State.enqueue {} 0 11 0 false).2 ≠ .ok () ∧
      ¬ State.NoTrace {} (State.enqueue {} 0 11 0 false).1 0 ∧
      (machine.run ToMathlib.Machine.Always {} [.otherArrival, .post .kOnce 10 false,
        .start 1 false, .operation, .loop 11 true, .call 0 11, .remove 0 true 0, .finish 0,
        .loop 12 true, .complete]).map (fun σ => (σ.otherJobs, σ.jobCount)) = some (1, 0) := by
  refine ⟨by decide, ?_, by decide⟩
  exact State.not_noTrace_enqueue {} 0 11 0 false

end Asrt.Timer.Clients
