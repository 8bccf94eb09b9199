import Asrt.Timer.Clients

/-!
# When timers and jobs balance

Every timer that is armed announces one job. A timer operation is completed once, however many
timers it has taken out of the queue, and announces a job of its own if it leaves timers behind. So
the jobs balance in runs in which an operation takes out exactly one timer if it is the last one,
and none otherwise; in which no waitable timer has a zero expiry; and in which the timerfd can be
programmed, tasks are cancelled while they are armed and waitable timers destroyed while they are
not.
-/

namespace Asrt.Timer.Clients

/-- The number of timers that the operation has taken out of the queue. -/
def Origin.fired : Origin → ℕ
  | .operation fired => fired
  | .wait => 0

@[simp] theorem Origin.fired_operation (fired : ℕ) : (Origin.operation fired).fired = fired := rfl

namespace State

variable {σ σ' : State}

/-- The timer is armed. -/
def Armed (σ : State) (timer : TimerTag) : Prop :=
  (σ.queue.timers timer).isValid = true ∧ timer ∈ σ.queue.queuedTags

/-- Jobs and timers balance: there are at least as many jobs as armed timers, and when all
timers have fired or been cancelled and all operations have run, only the executor's other
jobs are left. -/
structure JobsBalanced (σ : State) : Prop where
  armed : σ.queue.queuedTimers.length ≤ σ.jobCount
  settled : σ.queue.queuedTimers = [] → σ.expiries = [] → σ.looping = none →
    σ.completions = 0 → σ.jobCount = σ.otherJobs

/-- One more job fits the counter. -/
def JobFits (σ : State) : Prop := σ.jobCount + 1 < 2 ^ 32

/-- The condition on a step. -/
def Counted (σ : State) : Action → Prop
  | .waitAsync i now settime =>
    ∀ timer ∈ σ.waitables[i]?, timer.asyncWaitInProgress = false →
      timer.getNextExpiry now ≠ 0 ∧ settime = true ∧ σ.JobFits
  | .start _ settime => settime = true ∧ σ.JobFits
  | .destroy i _ _ => ∀ timer ∈ σ.waitables[i]?, ¬ σ.Armed timer.timerId
  | .cancel task settime _ => task ∈ σ.periodicJobIds → σ.Armed task ∧ settime = true
  | .loop now _ =>
    σ.queue.nextExpired now = none → ∀ fired ∈ σ.looping,
      σ.queue.queuedTimers = [] ∧ fired = 1 ∨
        σ.queue.queuedTimers ≠ [] ∧ fired = 0 ∧ σ.JobFits
  | .post _ _ immediate => immediate = true → σ.JobFits
  | .otherArrival => σ.JobFits
  | _ => True

/-! ## The invariant -/

/-- The timers that the operations under way have taken out of the queue. -/
def firedTotal (σ : State) : ℕ :=
  (σ.expiries.map fun e => e.origin.fired).sum + σ.looping.getD 0

/-- The invariant: every job is one of the executor's other jobs, an armed timer, a timer that an
operation under way has taken out of the queue, or an operation to be completed. -/
structure JobInv (σ : State) : Prop where
  count : σ.jobCount =
    σ.otherJobs + σ.queue.queuedTimers.length + σ.firedTotal + σ.completions
  fits : σ.jobCount < 2 ^ 32
  operations : ∀ e ∈ σ.expiries, e.origin ≠ .wait

/-- The invariant gives the property. -/
theorem JobInv.jobsBalanced (h : σ.JobInv) : σ.JobsBalanced where
  armed := by
    rw [h.count]
    omega
  settled hqueue hexpiries hlooping hcompletions := by
    have hcount := h.count
    simpa [firedTotal, hqueue, hexpiries, hlooping, hcompletions] using hcount

/-- The invariant is about the length of the queue and not about its clients. -/
theorem JobInv.queue (h : σ.JobInv) {queue : TimerQueue Callback}
    (hlen : queue.queuedTimers.length = σ.queue.queuedTimers.length)
    (periodicJobIds live : List TimerTag) (waitables : List WaitableTimer)
    (starting : Option Starting) :
    { σ with queue, periodicJobIds, live, waitables, starting }.JobInv where
  count := by
    simp only [hlen]
    exact h.count
  fits := h.fits
  operations := h.operations

/-- A timer is armed and its job announced. -/
theorem JobInv.arm (h : σ.JobInv) (hfits : σ.JobFits) {queue : TimerQueue Callback}
    (hlen : queue.queuedTimers.length = σ.queue.queuedTimers.length + 1)
    (periodicJobIds : List TimerTag) (waitables : List WaitableTimer)
    (starting : Option Starting) :
    (onJobArrival { σ with queue, periodicJobIds, waitables, starting }).JobInv := by
  rw [onJobArrival_eq (by exact hfits)]
  refine ⟨?_, hfits, h.operations⟩
  have hcount := h.count
  simp only [firedTotal, hlen] at hcount ⊢
  omega

/-- Another job arrives. -/
theorem JobInv.otherArrival (h : σ.JobInv) (hfits : σ.JobFits) :
    (onJobArrival { σ with otherJobs := σ.otherJobs + 1 }).JobInv := by
  rw [onJobArrival_eq (by exact hfits)]
  refine ⟨?_, hfits, h.operations⟩
  have hcount := h.count
  simp only [firedTotal] at hcount ⊢
  omega

/-- Another job is completed. -/
theorem JobInv.otherCompletion (h : σ.JobInv) (hpos : 0 < σ.otherJobs) :
    (onJobCompletion { σ with otherJobs := σ.otherJobs - 1 }).JobInv := by
  have hcount := h.count
  have hfits := h.fits
  rw [onJobCompletion_eq (by dsimp only; omega) (by exact hfits)]
  refine ⟨?_, by dsimp only; omega, h.operations⟩
  simp only [firedTotal] at hcount ⊢
  omega

/-- The executor counts the completion of an operation. -/
theorem JobInv.complete (h : σ.JobInv) (hpos : 0 < σ.completions) :
    (onJobCompletion { σ with completions := σ.completions - 1 }).JobInv := by
  have hcount := h.count
  have hfits := h.fits
  rw [onJobCompletion_eq (by dsimp only; omega) (by exact hfits)]
  refine ⟨?_, by dsimp only; omega, h.operations⟩
  simp only [firedTotal] at hcount ⊢
  omega

/-- `WaitAsync()` keeps the invariant, if its timer does not expire at once. -/
theorem JobInv.waitAsync (h : σ.JobInv) {i now : ℕ} {timer : WaitableTimer} {settime : Bool}
    (hC : timer.asyncWaitInProgress = false →
      timer.getNextExpiry now ≠ 0 ∧ settime = true ∧ σ.JobFits) :
    (σ.waitAsync i timer now settime).JobInv := by
  simp only [State.waitAsync]
  split
  · exact h
  rename_i hprogress
  obtain ⟨hexpiry, hsettime, hfits⟩ := hC (by simpa using hprogress)
  rw [if_neg hexpiry]
  obtain ⟨queuedTimers, timerFd, res, -, hres, heq⟩ := σ.queue.doAddTimer_spec timer.timerId
    (timer.getNextExpiry now) timer.interval settime
  have hlen := σ.queue.doAddTimer_length timer.timerId (timer.getNextExpiry now) timer.interval
    settime
  obtain rfl := hres hsettime
  rw [heq] at hlen ⊢
  exact h.arm hfits hlen _ _ _

/-- Starting a task keeps the invariant. -/
theorem JobInv.startTimedTaskAsync (h : σ.JobInv) {task : Starting} {now : ℕ} {settime : Bool}
    (hsettime : settime = true) (hfits : σ.JobFits) :
    (σ.startTimedTaskAsync task now settime).JobInv := by
  obtain ⟨queuedTimers, timerFd, res, -, hres, heq⟩ := σ.queue.doAddTimer_spec task.tag
    (now + task.period) (if task.type = .kRecurring then task.period else 0) settime
  have hlen := σ.queue.doAddTimer_length task.tag (now + task.period)
    (if task.type = .kRecurring then task.period else 0) settime
  obtain rfl := hres hsettime
  simp only [State.startTimedTaskAsync]
  rw [heq] at hlen ⊢
  exact h.arm hfits hlen _ _ _

/-- `Reserve()` concerns the tags only. -/
theorem reserve_queued (σ : State) (callback : Callback) :
    ∃ queue live res, σ.reserve callback = ({ σ with queue, live }, res) ∧
      queue.queuedTimers.length = σ.queue.queuedTimers.length := by
  have hlen := congrArg List.length (σ.queue.reserve_queuedTimers callback)
  simp only [State.reserve]
  split
  · rename_i queue tag heq
    rw [heq] at hlen
    exact ⟨queue, _, _, rfl, hlen⟩
  · rename_i queue ec heq
    rw [heq] at hlen
    exact ⟨queue, σ.live, _, rfl, hlen⟩

/-- The first part of a post keeps the invariant. -/
theorem JobInv.post (h : σ.JobInv) {immediate : Bool} (hfits : immediate = true → σ.JobFits)
    (type : TimedTaskType) (period : ℕ) : (σ.post type period immediate).JobInv := by
  -- the immediate execution is one more of the other jobs
  have hstarted : (if immediate then { σ with otherJobs := σ.otherJobs + 1 }.onJobArrival
      else σ).JobInv := by
    split
    · exact h.otherArrival (hfits ‹_›)
    · exact h
  simp only [State.post]
  generalize (if immediate then { σ with otherJobs := σ.otherJobs + 1 }.onJobArrival else σ) = σ₁
    at hstarted ⊢
  obtain ⟨queue, live, res, heq, hlen⟩ := σ₁.reserve_queued (.task type)
  rw [heq]
  cases res with
  | some tag => exact hstarted.queue hlen _ _ _ _
  | none => exact hstarted.queue hlen _ _ _ _

/-- `CancelTimedJob()` of an armed task keeps the invariant. -/
theorem JobInv.cancelTimedJob (h : σ.JobInv) {task : TimerTag} {settime : Bool} {stale : TimerTag}
    (hC : task ∈ σ.periodicJobIds → σ.Armed task ∧ settime = true) :
    (σ.cancelTimedJob task settime stale).JobInv := by
  simp only [State.cancelTimedJob]
  split
  · exact h
  rename_i hmem
  obtain ⟨⟨hvalid, hqueued⟩, hsettime⟩ := hC (not_not.mp hmem)
  have hlen := σ.queue.dequeue_length task settime stale
  rw [if_pos ⟨hvalid, hqueued⟩] at hlen
  obtain ⟨_, _, _, res, -, -, hok, heq⟩ :=
    TimerQueue.dequeue_of_valid hvalid settime stale
  -- the timer is queued, so `Dequeue()` succeeds and the job is completed
  have hres : (σ.queue.dequeue task settime stale).2 = .ok () := by
    rw [heq]
    exact (hok hqueued hsettime).2
  have hpos : 0 < σ.queue.queuedTimers.length := by
    rw [← TimerQueue.length_queuedTags]
    exact List.length_pos_of_mem hqueued
  have hcount := h.count
  have hfits := h.fits
  simp only [hres]
  rw [onJobCompletion_eq (by simp only [removeTimedTaskAsync, dequeue]; omega)
    (by simp only [removeTimedTaskAsync, dequeue]; omega)]
  refine ⟨?_, ?_, h.operations⟩
  · simp only [removeTimedTaskAsync, dequeue, firedTotal, hlen] at hcount ⊢
    omega
  · simp only [removeTimedTaskAsync, dequeue]
    omega

/-- A turn of the loop of `HandleExpiry()` keeps the invariant, if it does not end or if the one
completion of the operation settles what it has fired. -/
theorem JobInv.loop (h : σ.JobInv) {fired now : ℕ} {settime : Bool}
    (hlooping : σ.looping = some fired)
    (hC : σ.queue.nextExpired now = none →
      σ.queue.queuedTimers = [] ∧ fired = 1 ∨
        σ.queue.queuedTimers ≠ [] ∧ fired = 0 ∧ σ.JobFits) :
    (σ.loop fired now settime).JobInv := by
  have hcount := h.count
  simp only [firedTotal, hlooping, Option.getD_some] at hcount
  simp only [State.loop]
  split
  · refine ⟨?_, h.fits, fun e he => ?_⟩
    · simp only [beginExpiry, TimerQueue.beginOneExpiry, TimerQueue.setTimer, firedTotal,
        List.map_cons, List.sum_cons, Origin.fired_operation, Option.getD_none]
      omega
    · rcases List.mem_cons.mp he with rfl | he
      · exact Origin.noConfusion
      · exact h.operations e he
  · rename_i hnext
    rcases hC hnext with ⟨hempty, hfired⟩ | ⟨hne, hfired, hfits⟩
    · rw [if_pos hempty]
      refine ⟨?_, h.fits, h.operations⟩
      simp only [firedTotal, TimerQueue.primeTimerFd_queuedTimers, Option.getD_none]
      omega
    · rw [if_neg hne, onJobArrival_eq (by exact hfits)]
      refine ⟨?_, hfits, h.operations⟩
      simp only [firedTotal, TimerQueue.primeTimerFd_queuedTimers, Option.getD_none]
      omega

/-- What an operation has fired after a step that takes timers out of the queue. -/
theorem fired_countFired (origin : Origin) (horigin : origin ≠ .wait) (σ σ' : State) :
    (countFired σ σ' origin).fired =
      origin.fired + (σ.queue.queuedTimers.length - σ'.queue.queuedTimers.length) := by
  cases origin with
  | operation fired => rfl
  | wait => exact absurd rfl horigin

/-- Invoking a callback keeps the invariant. -/
theorem JobInv.call (h : σ.JobInv) {i : ℕ} {e : Expiry} (hi : σ.expiries[i]? = some e) (now : ℕ) :
    { σ with expiries := σ.expiries.set i { e with
      prevExpiry := now, callback := (σ.queue.timers e.tag).handler } }.JobInv := by
  have hmap : (σ.expiries.set i { e with
      prevExpiry := now, callback := (σ.queue.timers e.tag).handler }).map
        (fun e => e.origin.fired) = σ.expiries.map fun e => e.origin.fired :=
    ToMathlib.map_set_of_eq _ hi rfl
  refine ⟨?_, h.fits, fun e' he' => ?_⟩
  · simp only [firedTotal, hmap]
    exact h.count
  · rcases List.mem_or_eq_of_mem_set he' with he' | rfl
    · exact h.operations e' he'
    · exact h.operations e (List.mem_of_getElem? hi)

/-- An operation stays one. -/
theorem countFired_ne_wait {origin : Origin} (horigin : origin ≠ .wait) (σ σ' : State) :
    countFired σ σ' origin ≠ .wait := by
  cases origin with
  | operation fired => exact nofun
  | wait => exact absurd rfl horigin

/-- The removal of its timer by a one-shot task keeps the invariant. -/
theorem JobInv.remove (h : σ.JobInv) {i : ℕ} {e : Expiry} (hi : σ.expiries[i]? = some e)
    (settime : Bool) (stale : TimerTag) :
    { σ.removeTimedTaskAsync e.tag settime stale with
      expiries := σ.expiries.set i { e with
        removed := true
        origin :=
          countFired σ (σ.removeTimedTaskAsync e.tag settime stale) e.origin } }.JobInv := by
  have horigin := h.operations e (List.mem_of_getElem? hi)
  have hle : (σ.queue.dequeue e.tag settime stale).1.queuedTimers.length ≤
      σ.queue.queuedTimers.length := by
    rw [TimerQueue.dequeue_length]
    exact Nat.sub_le _ _
  have hfired := fired_countFired e.origin horigin σ (σ.removeTimedTaskAsync e.tag settime stale)
  have hsum := ToMathlib.sum_map_set (fun e => e.origin.fired) hi { e with
    removed := true
    origin := countFired σ (σ.removeTimedTaskAsync e.tag settime stale) e.origin }
  have hcount := h.count
  refine ⟨?_, h.fits, fun e' he' => ?_⟩
  · simp only [firedTotal, removeTimedTaskAsync, dequeue] at hcount hfired hsum ⊢
    omega
  · rcases List.mem_or_eq_of_mem_set he' with he' | rfl
    · exact h.operations e' he'
    · exact countFired_ne_wait horigin _ _

/-- The end of an expiry keeps the invariant. -/
theorem JobInv.finishExpiry (h : σ.JobInv) {i : ℕ} {e : Expiry} (hi : σ.expiries[i]? = some e)
    (hlooping : σ.looping = none) : (σ.finishExpiry i e).JobInv := by
  have horigin := h.operations e (List.mem_of_getElem? hi)
  obtain ⟨fired, hfired⟩ : ∃ fired, e.origin = .operation fired := by
    cases he : e.origin with
    | operation fired => exact ⟨fired, rfl⟩
    | wait => exact absurd he horigin
  have hle := σ.queue.endOneExpiry_length_le e.tag e.prevExpiry
  have hsum := ToMathlib.sum_map_eraseIdx (fun e => e.origin.fired) hi
  have hcount := h.count
  simp only [State.finishExpiry, countFired, hfired]
  refine ⟨?_, h.fits, fun e' he' => h.operations e' (List.mem_of_mem_eraseIdx he')⟩
  simp only [firedTotal, hlooping, hfired, Origin.fired_operation, Option.getD_some,
    Option.getD_none] at hcount hsum ⊢
  omega

/-- One step keeps the invariant. -/
theorem JobInv.step (h : σ.JobInv) {a : Action} (hC : σ.Counted a) (hσ' : σ.step a = some σ') :
    σ'.JobInv := by
  cases transition_of_step hσ' with
  | construct hlooping hreserve =>
    obtain ⟨queue, live, res, heq, hlen⟩ := σ.reserve_queued .waitable
    obtain ⟨rfl, rfl⟩ : _ ∧ _ := by simpa using heq.symm.trans hreserve
    exact h.queue hlen _ _ _ _
  | expiresAtRefused hi hwait => exact h
  | expiresAt hi hwait => exact h.queue rfl _ _ _ _
  | waitAsync hlooping hi => exact h.waitAsync (hC _ hi)
  | @destroy i settime stale timer hlooping hi =>
    -- the timer is not armed, so the queue keeps its length
    have hlen := σ.queue.dequeue_length timer.timerId settime stale
    have hnot : ¬ ((σ.queue.timers timer.timerId).isValid = true ∧
        timer.timerId ∈ σ.queue.queuedTags) := hC timer hi
    rw [if_neg hnot, Nat.sub_zero] at hlen
    exact h.queue hlen _ _ _ _
  | post hlooping hstarting => exact h.post hC _ _
  | start hlooping hnow htask => exact h.startTimedTaskAsync hC.1 hC.2
  | cancel hlooping => exact h.cancelTimedJob hC
  | operation hlooping =>
    refine ⟨?_, h.fits, h.operations⟩
    simpa [firedTotal, hlooping] using h.count
  | loop hlooping => exact h.loop hlooping fun hnext => hC hnext _ hlooping
  | call hi hready => exact h.call hi _
  | remove hi hready => exact h.remove hi _ _
  | finish hi hready => exact h.finishExpiry hi (Option.isNone_iff_eq_none.mp hready.1)
  | complete hpos => exact h.complete hpos
  | otherArrival => exact h.otherArrival hC
  | otherCompletion hpos => exact h.otherCompletion hpos

end State

/-! ## The result -/

/-- In a run whose timer operations settle exactly what they fire, jobs and timers balance. -/
theorem timer_job_accounting {σ : State} (hσ : machine.ReachableIn State.Counted σ) :
    σ.JobsBalanced := by
  have hinv : σ.JobInv := by
    refine hσ.invariant ?_ ?_
    · rintro _ ⟨jobs, hjobs, rfl⟩
      exact ⟨rfl, hjobs, nofun⟩
    · intro σ a σ' h hC hσ'
      exact h.step hC hσ'
  exact hinv.jobsBalanced

instance (σ : State) (timer : TimerTag) : Decidable (σ.Armed timer) :=
  inferInstanceAs (Decidable (_ ∧ _))

instance (σ : State) : Decidable σ.JobFits :=
  inferInstanceAs (Decidable (_ < _))

instance (σ : State) : (a : Action) → Decidable (σ.Counted a)
  | .waitAsync _ _ _ | .destroy _ _ _ => inferInstanceAs (Decidable (∀ _ ∈ _, _))
  | .start _ _ => inferInstanceAs (Decidable (_ ∧ _))
  | .cancel _ _ _ | .loop _ _ | .post _ _ _ => inferInstanceAs (Decidable (_ → _))
  | .otherArrival => inferInstanceAs (Decidable σ.JobFits)
  | .construct _ _ | .expiresAt _ _ | .operation | .call _ _ | .remove _ _ _ | .finish _ |
    .complete | .otherCompletion => inferInstanceAs (Decidable True)

/-- A periodic task fires and is cancelled, and then a deferred task fires alone: the job count is
back at zero. -/
theorem timer_job_accounting_one_at_a_time :
    ∃ σ, machine.ReachableIn State.Counted σ ∧ σ.queue.tagEnd = 1 ∧ σ.jobCount = 0 ∧
      σ.JobsBalanced := by
  have hσ := ToMathlib.Machine.reachableIn_get_run (M := machine) (C := State.Counted) (s := {})
    (l := [.post .kRecurring 10 false, .start 1 true, .operation, .loop 11 true, .call 0 11,
      .finish 0, .loop 12 true, .complete, .cancel 0 true 0, .post .kOnce 10 false, .start 15 true,
      .operation, .loop 25 true, .call 0 25, .remove 0 true 0, .finish 0, .loop 26 true,
      .complete]) ⟨0, by decide, rfl⟩ (by decide)
  exact ⟨_, hσ, by decide, by decide, timer_job_accounting hσ⟩

/-- Two deferred tasks fire in the same call of `HandleExpiry()`: both are gone and all operations
have run, but one job is left. -/
theorem timer_job_accounting_batch : ∃ σ, machine.Reachable σ ∧ ¬ σ.JobsBalanced := by
  have hσ := ToMathlib.Machine.reachableIn_get_run (M := machine) (C := ToMathlib.Machine.Always)
    (s := {})
    (l := [.post .kOnce 10 false, .start 1 true, .post .kOnce 11 false, .start 1 true,
      .operation, .loop 20 true, .call 0 20, .remove 0 true 0, .finish 0, .loop 20 true,
      .call 0 20, .remove 0 true 0, .finish 0, .loop 20 true, .complete])
    ⟨0, by decide, rfl⟩ (by decide)
  refine ⟨_, hσ, fun hbalanced => ?_⟩
  have hleft := hbalanced.settled (by decide) (by decide) (by decide) (by decide)
  exact absurd hleft (by decide)

end Asrt.Timer.Clients
