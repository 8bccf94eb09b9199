import Asrt.Timer.Handlers
import Asrt.Timer.QueueInvariant

/-!
# How the timerfd follows the queue

The timerfd has to be programmed to a time no later than the earliest expiry while timers are
queued, or a timer is missed, and it has to be disarmed while none is: it is monitored
level-triggered and never read, so once it has expired it stays readable until it is programmed
again.

`Dequeue()` compares the tag of the timer that it has just removed with the front of what is left,
so it programs the timerfd only if it has emptied the queue. A timerfd that is early is harmless:
the next call of `HandleExpiry()` finds no timer that has expired and programs it again. But when
the last timer is taken out of the queue by the end of its own expiry, nobody disarms the timerfd.

## Main results

- `no_missed_timer`: the timerfd is never late.
- `idle_queue_disarmed`: it is disarmed when the queue is idle, in runs where `HandleOneExpiry()`
  does not empty the queue.
-/

namespace Asrt.Timer.Handlers

namespace State

variable {H : Type} {σ σ' : State H}

/-- `timerfd_settime()` succeeds if the step calls it. -/
def Programmable (_ : State H) : Action H → Prop
  | .enqueue _ _ _ settime | .dequeue _ settime _ | .loop _ settime => settime = true
  | .reserve _ | .operation | .call _ _ | .finish _ => True

instance (σ : State H) : (a : Action H) → Decidable (σ.Programmable a)
  | .enqueue _ _ _ _ | .dequeue _ _ _ | .loop _ _ => inferInstanceAs (Decidable (_ = true))
  | .reserve _ | .operation | .call _ _ | .finish _ => inferInstanceAs (Decidable True)

/-- A call of `HandleExpiry()` is in progress: its loop holds the mutex, or it calls a handler. -/
def ExpiryInProgress (σ : State H) : Prop :=
  σ.looping = true ∨ ∃ e ∈ σ.expiries, e.fromLoop = true

instance (σ : State H) : Decidable σ.ExpiryInProgress :=
  inferInstanceAs (Decidable (_ ∨ _))

/-! ## No timer is missed -/

/-- The queue is a min-heap of distinct timers with the expiries of the table. If no expiry is in
progress, the timerfd is armed for a time no later than any expiry in the queue. -/
structure TimersArmed (σ : State H) : Prop extends σ.queue.WellFormed where
  armed : ¬ σ.ExpiryInProgress → ∀ entry ∈ σ.queue.queuedTimers,
    σ.queue.timerFd ≠ 0 ∧ σ.queue.timerFd ≤ entry.expiry

/-- The condition on a step: timers are enqueued with an expiry and while they are not queued, and
the timerfd can be programmed. -/
def Timely (σ : State H) (a : Action H) : Prop :=
  σ.Programmable a ∧
    match a with
    | .enqueue timer expiry _ _ => expiry ≠ 0 ∧ timer ∉ σ.queue.queuedTags
    | .dequeue _ _ _ | .loop _ _ | .reserve _ | .operation | .call _ _ | .finish _ => True

/-- The invariant: moreover every expiry is handled by `HandleExpiry()`, and no expiry in the queue
would disarm the timerfd. -/
structure ArmInv (σ : State H) : Prop extends σ.TimersArmed where
  operations : ∀ e ∈ σ.expiries, e.fromLoop = true
  nonzero : ∀ entry ∈ σ.queue.queuedTimers, entry.expiry ≠ 0

/-- A step of `HandleExpiry()` keeps the invariant if it keeps the queue well formed: the timerfd is
programmed later. -/
theorem ArmInv.inProgress (hwellFormed : σ'.queue.WellFormed) (hprogress : σ'.ExpiryInProgress)
    (hoperations : ∀ e ∈ σ'.expiries, e.fromLoop = true)
    (hnonzero : ∀ entry ∈ σ'.queue.queuedTimers, entry.expiry ≠ 0) : σ'.ArmInv where
  toWellFormed := hwellFormed
  armed hidle := absurd hprogress hidle
  operations := hoperations
  nonzero := hnonzero

/-- A reservation concerns the tags and the table only. -/
theorem reserve_eq (σ : State H) (handler : H) :
    ∃ reserved, σ.reserve handler = { σ with queue := (σ.queue.reserve handler).1, reserved } := by
  simp only [State.reserve]
  split
  · rename_i heq
    exact ⟨_, by rw [heq]⟩
  · rename_i heq
    exact ⟨_, by rw [heq]⟩

/-- `Reserve()` keeps the invariant. -/
theorem ArmInv.reserve (h : σ.ArmInv) (handler : H) : (σ.reserve handler).ArmInv := by
  obtain ⟨reserved, heq⟩ := σ.reserve_eq handler
  have hqueue := σ.queue.reserve_queuedTimers handler
  rw [heq]
  refine ⟨⟨h.toWellFormed.reserve handler, ?_⟩, h.operations, ?_⟩
  · intro hidle entry hentry
    rw [TimerQueue.reserve_timerFd]
    exact h.armed hidle entry (hqueue ▸ hentry)
  · intro entry hentry
    exact h.nonzero entry (hqueue ▸ hentry)

/-- `Enqueue()` keeps the invariant: the timerfd is programmed if the new timer expires before the
front. -/
theorem ArmInv.enqueue (h : σ.ArmInv) {timer : TimerTag} {expiry : ℕ} (hexpiry : expiry ≠ 0)
    (hnot : timer ∉ σ.queue.queuedTags) (interval : ℕ) :
    { σ with queue := (σ.queue.doAddTimer timer expiry interval true).1 }.ArmInv where
  toWellFormed := h.toWellFormed.doAddTimer hnot expiry interval true
  armed hidle entry hentry := by
    have hfd := σ.queue.doAddTimer_timerFd timer expiry interval
    have harmed := h.armed hidle
    simp only at hentry ⊢
    rw [hfd, TimerQueue.isNextExpiry]
    cases hqueue : σ.queue.queuedTimers with
    | nil =>
      -- the only timer: the timerfd is programmed to it
      rcases TimerQueue.mem_doAddTimer.mp hentry with rfl | hold
      · exact ⟨hexpiry, Nat.le_refl _⟩
      · simp [hqueue] at hold
    | cons front rest =>
      -- the timerfd is programmed if the new timer expires before the front, and is early else
      have hfront := harmed front (by simp [hqueue])
      rcases TimerQueue.mem_doAddTimer.mp hentry with rfl | hold
      · simp only [decide_eq_true_eq]
        split
        · exact ⟨hexpiry, Nat.le_refl _⟩
        · exact ⟨hfront.1, by omega⟩
      · have hle := (hqueue ▸ h.heap).front_le (hqueue ▸ hold)
        have hentry' := harmed entry hold
        simp only [decide_eq_true_eq]
        split
        · exact ⟨hexpiry, by omega⟩
        · exact hentry'
  operations := h.operations
  nonzero entry hentry := by
    rcases TimerQueue.mem_doAddTimer.mp hentry with rfl | hold
    · exact hexpiry
    · exact h.nonzero entry hold

/-- `Dequeue()` keeps the invariant: the timerfd may be early afterwards. -/
theorem ArmInv.dequeue (h : σ.ArmInv) (timer stale : TimerTag) :
    (σ.dequeue timer true stale).ArmInv where
  toWellFormed := h.toWellFormed.dequeue timer stale
  armed hidle entry hentry := by
    rcases h.toWellFormed.dequeue_timerFd timer stale with hfd | hempty
    · -- fewer timers are queued, so the timerfd is at most early
      have harmed := h.armed hidle entry (h.toWellFormed.mem_of_mem_dequeue hentry)
      simp only [State.dequeue, hfd]
      exact harmed
    · simp only [State.dequeue, hempty] at hentry
      cases hentry
  operations := h.operations
  nonzero entry hentry := h.nonzero entry (h.toWellFormed.mem_of_mem_dequeue hentry)

/-- The end of `HandleExpiry()` keeps the invariant: the timerfd is programmed to the earliest
expiry. -/
theorem ArmInv.prime (h : σ.ArmInv) :
    { σ with looping := false, queue := σ.queue.primeTimerFd true }.ArmInv where
  toWellFormed := h.toWellFormed.primeTimerFd true
  armed _ entry hentry := by
    simp only [TimerQueue.primeTimerFd_queuedTimers] at hentry
    simp only [TimerQueue.primeTimerFd]
    cases hqueue : σ.queue.queuedTimers with
    | nil => simp [hqueue] at hentry
    | cons front rest =>
      refine ⟨h.nonzero front (by simp [hqueue]), ?_⟩
      exact (hqueue ▸ h.heap).front_le (hqueue ▸ hentry)
  operations := h.operations
  nonzero entry hentry := by
    simp only [TimerQueue.primeTimerFd_queuedTimers] at hentry
    exact h.nonzero entry hentry

/-- One step keeps the invariant. -/
theorem ArmInv.step (h : σ.ArmInv) {a : Action H} (hC : σ.Timely a) (hσ' : σ.step a = some σ') :
    σ'.ArmInv := by
  cases transition_of_step hσ' with
  | reserve hidle => exact h.reserve _
  | expireAtOnce hidle => exact absurd rfl hC.2.1
  | enqueue hidle hexpiry =>
    obtain rfl : _ = true := hC.1
    exact h.enqueue hexpiry hC.2.2 _
  | dequeue hidle =>
    obtain rfl : _ = true := hC.1
    exact h.dequeue _ _
  | operation hidle => exact .inProgress h.toWellFormed (.inl rfl) h.operations h.nonzero
  | @expire now settime tag hlooping hnext =>
    refine .inProgress (h.toWellFormed.beginOneExpiry tag) (.inr ⟨_, List.mem_cons_self, rfl⟩) ?_
      h.nonzero
    intro e he
    rcases List.mem_cons.mp he with rfl | he
    · rfl
    · exact h.operations e he
  | prime hlooping hnext =>
    obtain rfl : _ = true := hC.1
    exact h.prime
  | @call i now e hi hcalled =>
    have hfromLoop := h.operations e (List.mem_of_getElem? hi)
    obtain ⟨hlt, -⟩ := List.getElem?_eq_some_iff.mp hi
    refine .inProgress h.toWellFormed (.inr ⟨_, List.mem_set hlt _, hfromLoop⟩) ?_ h.nonzero
    intro e' he'
    rcases List.mem_or_eq_of_mem_set he' with he' | rfl
    · exact h.operations e' he'
    · exact hfromLoop
  | @finish i e hi hidle hcalled =>
    have hfromLoop := h.operations e (List.mem_of_getElem? hi)
    refine .inProgress (h.toWellFormed.endOneExpiry e.tag e.prevExpiry) (.inl hfromLoop)
      (fun e' he' => h.operations e' (List.mem_of_mem_eraseIdx he')) ?_
    intro entry hentry
    rcases h.toWellFormed.mem_of_mem_endOneExpiry hentry with hold | ⟨hinterval, rfl⟩
    · exact h.nonzero entry hold
    · -- the interval of a recurring timer is positive
      dsimp only
      omega

end State

/-- In every run in which timers are enqueued with an expiry and while they are not queued and the
timerfd can be programmed, the queue stays a heap that agrees with the table, and the timerfd is
never late. -/
theorem no_missed_timer {H : Type} {σ : State H} (hσ : (machine H).ReachableIn State.Timely σ) :
    σ.TimersArmed := by
  have hinv : σ.ArmInv := by
    refine hσ.invariant ?_ ?_
    · rintro _ rfl
      exact { toWellFormed := .empty, armed := nofun, operations := nofun, nonzero := nofun }
    · intro σ a σ' h hC hσ'
      exact h.step hC hσ'
  exact hinv.toTimersArmed

instance {H : Type} (σ : State H) : (a : Action H) → Decidable (σ.Timely a)
  | .enqueue _ _ _ _ => inferInstanceAs (Decidable (_ ∧ _ ∧ _))
  | .dequeue _ _ _ | .loop _ _ | .reserve _ | .operation | .call _ _ | .finish _ =>
    inferInstanceAs (Decidable (_ ∧ True))

/-- The front of three timers is dequeued, a recurring timer expires while another operation runs,
and its handler enqueues a timer that expires before all others: the timerfd is set to that one. -/
theorem no_missed_timer_enqueued_by_handler :
    ∃ σ : State ℕ, (machine ℕ).ReachableIn State.Timely σ ∧ ¬ σ.ExpiryInProgress ∧
      σ.queue.queuedTimers.length = 3 ∧ σ.queue.timerFd = 14 ∧ σ.TimersArmed := by
  have hσ := ToMathlib.Machine.reachableIn_get_run (M := machine ℕ) (C := State.Timely) (s := {})
    (l := [.reserve 20, .reserve 21, .reserve 22, .enqueue 0 10 0 true, .enqueue 1 12 6 true,
      .enqueue 2 30 0 true, .dequeue 0 true 0, .operation, .loop 12 true, .operation,
      .loop 11 true, .call 0 12, .reserve 23, .enqueue 0 14 0 true, .finish 0, .loop 13 true]) rfl
    (by decide)
  exact ⟨_, hσ, by decide, by decide, by decide, no_missed_timer hσ⟩

/-! ## The timerfd of an idle queue -/

namespace State

variable {H : Type} {σ σ' : State H}

/-- The timerfd is disarmed if no timer is queued and no expiry is in progress. -/
def DisarmedWhenIdle (σ : State H) : Prop :=
  σ.queue.queuedTimers = [] → ¬ σ.ExpiryInProgress → σ.queue.timerFd = 0

/-- The condition on a step. The timerfd can be programmed. A `Dequeue()` that removes the last
timer finds the tag of this timer where the front of the queue was. The end of an expiry does not
remove the last timer. -/
def Emptying (σ : State H) (a : Action H) : Prop :=
  σ.Programmable a ∧
    match a with
    | .dequeue timer _ stale =>
      (σ.queue.timers timer).isValid = true ∧ σ.queue.queuedTags = [timer] → stale = timer
    | .finish i =>
      ∀ e ∈ σ.expiries[i]?, σ.queue.releaseHandlerMemory = false →
        (σ.queue.timers e.tag).interval = 0 → σ.queue.queuedTags ≠ [e.tag]
    | .enqueue _ _ _ _ | .loop _ _ | .reserve _ | .operation | .call _ _ => True

/-- The invariant: the timerfd is disarmed while the queue is empty. -/
def EmptyDisarmed (σ : State H) : Prop := σ.queue.queuedTimers = [] → σ.queue.timerFd = 0

/-- What leaves the queue and the timerfd alone keeps the invariant. -/
theorem EmptyDisarmed.congr (h : σ.EmptyDisarmed)
    (hqueue : σ'.queue.queuedTimers = σ.queue.queuedTimers)
    (hfd : σ'.queue.timerFd = σ.queue.timerFd) : σ'.EmptyDisarmed := by
  intro hempty
  rw [hfd]
  exact h (hqueue ▸ hempty)

/-- A `Dequeue()` that empties the queue disarms the timerfd, if it finds the tag. -/
theorem EmptyDisarmed.dequeue (h : σ.EmptyDisarmed) {timer stale : TimerTag}
    (hstale : (σ.queue.timers timer).isValid = true ∧ σ.queue.queuedTags = [timer] →
      stale = timer) : (σ.dequeue timer true stale).EmptyDisarmed := by
  intro hempty
  simp only [State.dequeue] at hempty ⊢
  cases hvalid : (σ.queue.timers timer).isValid with
  | false =>
    rw [TimerQueue.dequeue_of_not_valid hvalid] at hempty ⊢
    exact h hempty
  | true =>
    obtain ⟨_, timerFd, heq, hfd⟩ := TimerQueue.dequeue_of_valid_eq hvalid stale
    obtain ⟨queuedTimers, hperm, hremove⟩ :=
      (σ.queue.invalidateTimer timer).removeTimerFromQueue_spec timer
    rw [heq] at hempty ⊢
    rw [hremove] at hempty hfd
    -- nothing is left, so the timer was alone in the queue, or the queue was empty before
    obtain rfl : queuedTimers = [] := hempty
    have htags : (σ.queue.invalidateTimer timer).queuedTags = σ.queue.queuedTags := by
      rw [TimerQueue.queuedTags, TimerQueue.invalidateTimer_queuedTimers]
      rfl
    rw [htags] at hperm
    have herase : σ.queue.queuedTags.erase timer = [] := hperm.symm.eq_nil
    rcases List.erase_eq_nil_iff.mp herase with hnil | hone
    · have hnone : timer ∉ σ.queue.queuedTags := by simp [hnil]
      rw [hfd, if_neg fun hmem => hnone hmem.1]
      exact h (List.map_eq_nil_iff.mp hnil)
    · obtain rfl := hstale ⟨hvalid, hone⟩
      rw [hfd, if_pos]
      simp [hone, TimerQueue.isNextTimer]

/-- The end of an expiry that does not remove the last timer keeps the invariant. -/
theorem EmptyDisarmed.finish (h : σ.EmptyDisarmed) {tag : TimerTag}
    (hlast : σ.queue.releaseHandlerMemory = false → (σ.queue.timers tag).interval = 0 →
      σ.queue.queuedTags ≠ [tag]) (prevExpiry : ℕ) (expiries : List (Expiry H)) (looping : Bool) :
    { σ with queue := σ.queue.endOneExpiry tag prevExpiry, expiries, looping }.EmptyDisarmed := by
  intro hempty
  simp only [TimerQueue.endOneExpiry_timerFd] at hempty ⊢
  refine h ?_
  cases hrelease : σ.queue.releaseHandlerMemory with
  | true =>
    -- the timer was taken out by the `Dequeue()` that asked for the release
    rw [TimerQueue.endOneExpiry_of_release hrelease] at hempty
    exact hempty
  | false =>
    by_cases hinterval : (σ.queue.timers tag).interval = 0
    · obtain ⟨queuedTimers, hperm, heq⟩ :=
        TimerQueue.endOneExpiry_of_oneShot hrelease hinterval prevExpiry
      rw [heq] at hempty
      obtain rfl : queuedTimers = [] := hempty
      rcases List.erase_eq_nil_iff.mp hperm.symm.eq_nil with hnil | hone
      · exact List.map_eq_nil_iff.mp hnil
      · exact absurd hone (hlast hrelease hinterval)
    · obtain ⟨queuedTimers, expiry, hperm, heq⟩ :=
        TimerQueue.endOneExpiry_of_recurring hrelease hinterval prevExpiry
      rw [heq] at hempty
      obtain rfl : queuedTimers = [] := hempty
      exact List.map_eq_nil_iff.mp hperm.symm.eq_nil

/-- One step keeps the invariant. -/
theorem EmptyDisarmed.step (h : σ.EmptyDisarmed) {a : Action H} (hC : σ.Emptying a)
    (hσ' : σ.step a = some σ') : σ'.EmptyDisarmed := by
  cases transition_of_step hσ' with
  | @reserve handler hidle =>
    obtain ⟨reserved, heq⟩ := σ.reserve_eq handler
    rw [heq]
    exact h.congr (σ.queue.reserve_queuedTimers handler) (σ.queue.reserve_timerFd handler)
  | expireAtOnce hidle => exact h.congr rfl rfl
  | @enqueue timer expiry interval settime hidle hexpiry =>
    -- there is a timer in the queue now
    intro hempty
    have hlen := σ.queue.doAddTimer_length timer expiry interval settime
    simp only at hempty
    simp [hempty] at hlen
  | dequeue hidle =>
    obtain rfl : _ = true := hC.1
    exact h.dequeue hC.2
  | operation hidle => exact h.congr rfl rfl
  | expire hlooping hnext => exact h.congr rfl rfl
  | prime hlooping hnext =>
    intro hempty
    simp only [TimerQueue.primeTimerFd_queuedTimers] at hempty
    simp only [TimerQueue.primeTimerFd, hempty]
    exact h hempty
  | call hi hcalled => exact h.congr rfl rfl
  | @finish i e hi hidle hcalled => exact h.finish (hC.2 e hi) _ _ _

end State

/-- In every run in which the end of an expiry never removes the last timer, and a `Dequeue()` that
does so finds its tag, the timerfd of an idle queue is disarmed. -/
theorem idle_queue_disarmed {H : Type} {σ : State H}
    (hσ : (machine H).ReachableIn State.Emptying σ) : σ.DisarmedWhenIdle := by
  have hinv : σ.EmptyDisarmed := by
    refine hσ.invariant ?_ ?_
    · rintro _ rfl
      exact fun _ => rfl
    · intro σ a σ' h hC hσ'
      exact h.step hC hσ'
  exact fun hempty _ => hinv hempty

instance {H : Type} (σ : State H) : (a : Action H) → Decidable (σ.Emptying a)
  | .dequeue _ _ _ => inferInstanceAs (Decidable (_ ∧ (_ → _)))
  | .finish _ => inferInstanceAs (Decidable (_ ∧ ∀ _ ∈ _, _))
  | .enqueue _ _ _ _ | .loop _ _ | .reserve _ | .operation | .call _ _ =>
    inferInstanceAs (Decidable (_ ∧ True))

/-- A recurring timer expires and cancels itself from its handler: the timerfd is disarmed. -/
theorem idle_queue_disarmed_self_cancel :
    ∃ σ : State ℕ, (machine ℕ).ReachableIn State.Emptying σ ∧ σ.queue.queuedTimers = [] ∧
      ¬ σ.ExpiryInProgress ∧ σ.queue.tagEnd = 1 ∧ σ.DisarmedWhenIdle := by
  have hσ := ToMathlib.Machine.reachableIn_get_run (M := machine ℕ) (C := State.Emptying) (s := {})
    (l := [.reserve 20, .enqueue 0 10 5 true, .operation, .loop 10 true, .call 0 10,
      .dequeue 0 true 0, .finish 0, .loop 11 true]) rfl (by decide)
  exact ⟨_, hσ, by decide, by decide, by decide, idle_queue_disarmed hσ⟩

/-- The only timer is a one-shot timer, and it expires: the queue is idle, and the timerfd is still
set to the expiry that has passed. -/
theorem idle_queue_disarmed_last_one_shot :
    ∃ σ : State ℕ, (machine ℕ).ReachableIn State.Programmable σ ∧ ¬ σ.DisarmedWhenIdle := by
  have hσ := ToMathlib.Machine.reachableIn_get_run (M := machine ℕ) (C := State.Programmable)
    (s := {})
    (l := [.reserve 20, .enqueue 0 10 0 true, .operation, .loop 10 true, .call 0 10, .finish 0,
      .loop 11 true]) rfl (by decide)
  refine ⟨_, hσ, fun hdisarmed => ?_⟩
  exact absurd (hdisarmed (by decide) (by decide)) (by decide)

end Asrt.Timer.Handlers
