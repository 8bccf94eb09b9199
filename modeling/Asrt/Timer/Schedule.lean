import Asrt.Timer.Arming
import Asrt.Timer.HandlerIdentity
import Asrt.ToMathlib.Schedule

/-!
# The timer queue as a schedule

What the heap, the table of timers and the expiries in progress stand for: a `Schedule` of the tags.
`Enqueue()` adds a key and `Dequeue()` cancels it, a turn of the loop of `HandleExpiry()` fires a
key that is due, and the end of `HandleOneExpiry()` finishes it. `Reserve()`, the calls of the
handlers and the timerfd are not seen.

This holds in runs that are timely and orderly. The heap gives the key with the earliest deadline. A
pending release, which the end of an expiry may meet, belongs to a timer that is not queued any
more. That a timer which is not queued does not expire holds in every run.

## Main results

- `run_schedule`: the timer queue refines the schedule.
- `not_expired_of_not_queued`: a timer that is not queued does not expire until it is enqueued.
-/

namespace Asrt.Timer

open ToMathlib (Schedule)
open ToMathlib.Schedule (Event)

namespace TimerQueue

variable {H : Type} {q q' : TimerQueue H} {timer t : TimerTag}

/-- The deadline and the interval of a timer, if it is queued. -/
def pending (q : TimerQueue H) (timer : TimerTag) : Option (ℕ × ℕ) :=
  if timer ∈ q.queuedTags then some ((q.timers timer).expiry, (q.timers timer).interval) else none

theorem pending_of_mem (h : timer ∈ q.queuedTags) :
    q.pending timer = some ((q.timers timer).expiry, (q.timers timer).interval) := if_pos h

theorem pending_of_notMem (h : timer ∉ q.queuedTags) : q.pending timer = none := if_neg h

/-- Two queues agree on a timer that is queued in both or in neither, with the same times. -/
theorem pending_congr (hmem : timer ∈ q'.queuedTags ↔ timer ∈ q.queuedTags)
    (hexpiry : (q'.timers timer).expiry = (q.timers timer).expiry)
    (hinterval : (q'.timers timer).interval = (q.timers timer).interval) :
    q'.pending timer = q.pending timer := by
  simp only [pending, hmem, hexpiry, hinterval]

/-- Replacing an entry of the table by one with the same times changes nothing. -/
theorem pending_setTimer {entry : TimerQueueEntry H} (hexpiry : entry.expiry = (q.timers t).expiry)
    (hinterval : entry.interval = (q.timers t).interval) :
    (q.setTimer t entry).pending = q.pending := by
  funext timer
  by_cases htimer : timer = t
  · subst htimer
    exact pending_congr Iff.rfl (by simpa [setTimer] using hexpiry)
      (by simpa [setTimer] using hinterval)
  · exact pending_congr Iff.rfl (by simp [setTimer, htimer]) (by simp [setTimer, htimer])

/-- `Reserve()` concerns neither the queue nor the times. -/
theorem pending_reserve (q : TimerQueue H) (handler : H) :
    (q.reserve handler).1.pending = q.pending := by
  rcases q.reserve_cases handler with ⟨tag, rest, -, heq⟩ | ⟨-, heq⟩ | ⟨-, heq⟩
  · rw [heq]
    exact pending_setTimer rfl rfl
  · rw [heq]
    exact pending_setTimer rfl rfl
  · rw [heq]

/-- `Enqueue()` of a timer that is not due at once. -/
theorem pending_doAddTimer (q : TimerQueue H) (timer : TimerTag) (expiry interval : ℕ)
    (settime : Bool) :
    (q.doAddTimer timer expiry interval settime).1.pending =
      Function.update q.pending timer (some (expiry, interval)) := by
  obtain ⟨queuedTimers, timerFd, res, hperm, -, heq⟩ :=
    q.doAddTimer_spec timer expiry interval settime
  rw [heq]
  funext t
  by_cases ht : t = timer
  · subst ht
    rw [Function.update_self, pending_of_mem (hperm.mem_iff.mpr List.mem_cons_self)]
    simp [setTimer]
  · rw [Function.update_of_ne ht]
    refine pending_congr ?_ (by simp [setTimer, ht]) (by simp [setTimer, ht])
    exact hperm.mem_iff.trans (by simp [ht])

/-- `Dequeue()` of a timer that was armed. -/
theorem pending_dequeue (hdistinct : q.queuedTags.Nodup)
    (hvalid : (q.timers timer).isValid = true) (settime : Bool) (stale : TimerTag) :
    (q.dequeue timer settime stale).1.pending = Function.update q.pending timer none := by
  obtain ⟨queuedTimers, bin, timerFd, res, hperm, -, -, heq⟩ :=
    dequeue_of_valid hvalid settime stale
  rw [heq]
  funext t
  by_cases ht : t = timer
  · subst ht
    rw [Function.update_self]
    refine pending_of_notMem fun hmem => ?_
    exact hdistinct.not_mem_erase (hperm.mem_iff.mp hmem)
  · rw [Function.update_of_ne ht, invalidateTimer_eq]
    refine pending_congr ?_ (by simp [setTimer, ht]) (by simp [setTimer, ht])
    exact hperm.mem_iff.trans (List.mem_erase_of_ne ht)

/-- The end of an expiry, if a pending release is not that of a queued timer. -/
theorem pending_endOneExpiry (hdistinct : q.queuedTags.Nodup)
    (hrelease : q.releaseHandlerMemory = true → timer ∉ q.queuedTags) (prevExpiry : ℕ) :
    (q.endOneExpiry timer prevExpiry).pending =
      Function.update q.pending timer ((q.pending timer).bind fun p =>
        if p.2 = 0 then none else some (prevExpiry + p.2, p.2)) := by
  cases hpending : q.releaseHandlerMemory with
  | true =>
    rw [endOneExpiry_of_release hpending, pending_of_notMem (hrelease hpending)]
    have hnone : q.pending timer = none := pending_of_notMem (hrelease hpending)
    rw [Option.bind_none, ← hnone, Function.update_eq_self]
    exact pending_setTimer rfl rfl
  | false =>
    by_cases hinterval : (q.timers timer).interval = 0
    · -- a one-shot timer leaves the queue
      obtain ⟨queuedTimers, hperm, heq⟩ := endOneExpiry_of_oneShot hpending hinterval prevExpiry
      rw [heq]
      funext t
      by_cases ht : t = timer
      · subst ht
        have hnotMem : t ∉ queuedTimers.map (·.tag) := fun hmem =>
          hdistinct.not_mem_erase (hperm.mem_iff.mp hmem)
        rw [Function.update_self]
        refine (pending_of_notMem hnotMem).trans ?_
        by_cases hmem : t ∈ q.queuedTags
        · simp [pending_of_mem hmem, hinterval]
        · simp [pending_of_notMem hmem]
      · rw [Function.update_of_ne ht]
        refine pending_congr ?_ (by simp [setTimer, ht]) (by simp [setTimer, ht])
        exact hperm.mem_iff.trans (List.mem_erase_of_ne ht)
    · -- a recurring timer gets its next expiry
      obtain ⟨queuedTimers, hperm, heq⟩ := updateTimerExpiry_spec
        (q.setTimer timer { q.timers timer with inProgress := false }) timer
        (prevExpiry + (q.timers timer).interval) (q.timers timer).interval
      rw [endOneExpiry_eq, if_neg (by simp [hpending]), if_neg hinterval, heq]
      funext t
      by_cases ht : t = timer
      · subst ht
        rw [Function.update_self]
        by_cases hmem : t ∈ q.queuedTags
        · rw [pending_of_mem hmem]
          refine (pending_of_mem (hperm.mem_iff.mpr hmem)).trans ?_
          simp [setTimer, hinterval]
        · rw [pending_of_notMem hmem]
          exact pending_of_notMem fun h => hmem (hperm.mem_iff.mp h)
      · rw [Function.update_of_ne ht]
        exact pending_congr hperm.mem_iff (by simp [setTimer, ht]) (by simp [setTimer, ht])

/-- The timer that is handled next has the earliest deadline, which has come. -/
theorem WellFormed.due (h : q.WellFormed) {now : ℕ} (hnext : q.nextExpired now = some timer) :
    Schedule.Due ⟨q.pending, ∅⟩ timer now := by
  unfold nextExpired at hnext
  cases hqueue : q.queuedTimers with
  | nil => simp [hqueue] at hnext
  | cons front rest =>
    simp only [hqueue] at hnext
    obtain ⟨hexpired, ⟨⟩⟩ := Option.ite_none_right_eq_some.mp hnext
    have hmem : ∀ {entry}, entry ∈ front :: rest → entry.tag ∈ q.queuedTags := fun hentry =>
      List.mem_map_of_mem (hqueue ▸ hentry)
    refine ⟨_, pending_of_mem (hmem List.mem_cons_self), ?_, ?_⟩
    · simp only [isExpired, decide_eq_true_eq] at hexpired
      exact hexpired.2
    · intro t p hp
      by_cases ht : t ∈ q.queuedTags
      · obtain ⟨entry, hentry, rfl⟩ := List.mem_map.mp ht
        obtain rfl := Option.some.inj ((pending_of_mem ht).symm.trans hp)
        have hle := (hqueue ▸ h.heap).front_le (hqueue ▸ hentry)
        rw [h.agrees front (hqueue ▸ List.mem_cons_self), h.agrees entry hentry] at hle
        exact hle
      · cases (pending_of_notMem ht).symm.trans hp

end TimerQueue

namespace Handlers

namespace State

variable {H : Type} {σ σ' τ : State H}

/-- The schedule that the timer queue stands for. -/
def schedule (σ : State H) : Schedule TimerTag ℕ where
  pending := σ.queue.pending
  running := {timer | σ.Handling timer}

/-- What a step does to the schedule. -/
def shows (σ : State H) : Action H → Option (Event TimerTag ℕ)
  | .enqueue timer expiry interval _ => some (.add timer expiry interval)
  | .dequeue timer _ _ => some (.cancel timer)
  | .loop now _ => (σ.queue.nextExpired now).map fun timer => .fire timer now
  | .finish i => (σ.expiries[i]?).map fun e => .finish e.tag e.prevExpiry
  | .reserve _ | .operation | .call _ _ => none

/-- The condition on a step. -/
def TimelyAndOrderly (σ : State H) (a : Action H) : Prop := σ.Timely a ∧ σ.Orderly a

/-- The invariant of timely and orderly runs. -/
structure ScheduleInv (σ : State H) : Prop where
  inv : σ.Inv
  armInv : σ.ArmInv

theorem ScheduleInv.step (h : σ.ScheduleInv) {a : Action H} (hC : σ.TimelyAndOrderly a)
    (hσ' : σ.step a = some σ') : σ'.ScheduleInv :=
  ⟨h.inv.step hC.2 hσ', h.armInv.step hC.1 hσ'⟩

theorem scheduleInv_of_reachable (hσ : (machine H).ReachableIn State.TimelyAndOrderly σ) :
    σ.ScheduleInv := by
  refine hσ.invariant ?_ fun _ _ _ h hC hσ' => h.step hC hσ'
  rintro _ rfl
  exact ⟨.init, { toWellFormed := .empty, armed := nofun, operations := nofun, nonzero := nofun }⟩

/-- What is being handled after an expiry has ended. -/
theorem handling_finish (hdistinct : (σ.expiries.map (·.tag)).Nodup) {i : ℕ} {e : Expiry H}
    (hi : σ.expiries[i]? = some e) (queue : TimerQueue H) (looping : Bool) (t : TimerTag) :
    { σ with queue, expiries := σ.expiries.eraseIdx i, looping }.Handling t ↔
      σ.Handling t ∧ t ≠ e.tag := by
  have hperm := (ToMathlib.cons_eraseIdx_perm hi).map Expiry.tag
  obtain ⟨hnotMem, -⟩ := List.nodup_cons.mp (hperm.nodup_iff.mpr hdistinct)
  rw [handling_iff, handling_iff, ← hperm.mem_iff]
  simp only [List.map_cons, List.mem_cons]
  constructor
  · intro ht
    exact ⟨.inr ht, fun heq => hnotMem (heq ▸ ht)⟩
  · rintro ⟨ht, hne⟩
    exact ht.resolve_left hne

/-- A step that shows nothing leaves the schedule as it is. -/
theorem schedule_congr (hpending : σ'.queue.pending = σ.queue.pending)
    (hhandling : ∀ t, σ'.Handling t ↔ σ.Handling t) : σ'.schedule = σ.schedule := by
  have hrunning : {timer | σ'.Handling timer} = {timer | σ.Handling timer} := Set.ext hhandling
  rw [schedule, schedule, hpending, hrunning]

/-- Every other step does to the schedule what it shows. -/
theorem step_schedule (h : σ.ScheduleInv) {a : Action H} (hC : σ.TimelyAndOrderly a)
    (hσ' : σ.step a = some σ') :
    (Schedule.machine TimerTag ℕ).run ToMathlib.Machine.Always σ.schedule (σ.shows a).toList =
      some σ'.schedule := by
  have hrun : ∀ event, (Schedule.machine TimerTag ℕ).run ToMathlib.Machine.Always σ.schedule
      [event] = σ.schedule.step event := ToMathlib.Machine.run_singleton σ.schedule
  cases transition_of_step hσ' with
  | @reserve handler hidle =>
    obtain ⟨reserved, heq⟩ := σ.reserve_eq handler
    rw [heq]
    refine congrArg some (Eq.symm ?_)
    exact schedule_congr (σ.queue.pending_reserve handler) fun _ => Iff.rfl
  | expireAtOnce hidle => exact absurd rfl hC.1.2.1
  | @enqueue timer expiry interval settime hidle hexpiry =>
    have hnone : σ.schedule.pending timer = none := TimerQueue.pending_of_notMem hC.1.2.2
    refine (hrun _).trans ((if_pos hnone).trans (congrArg some ?_))
    rw [schedule, schedule, TimerQueue.pending_doAddTimer]
    rfl
  | @dequeue timer settime stale hidle =>
    refine (hrun _).trans (congrArg some ?_)
    rw [schedule, schedule, State.dequeue,
      TimerQueue.pending_dequeue h.armInv.distinct hC.2.2.1 settime stale]
    rfl
  | operation hidle => rfl
  | @expire now settime tag hlooping hnext =>
    have hidle : tag ∉ σ.schedule.running := hC.2 tag hnext
    have hdue : σ.schedule.Due tag now := h.armInv.toWellFormed.due hnext
    have hshows : (σ.shows (.loop now settime)).toList = [.fire tag now] := by
      simp [shows, hnext]
    rw [hshows]
    refine (hrun _).trans ((if_pos ⟨hdue, hidle⟩).trans (congrArg some ?_))
    have hrunning : {timer | ({ σ with looping := false }.beginExpiry tag true).Handling timer} =
        insert tag {timer | σ.Handling timer} :=
      Set.ext fun t => handling_beginExpiry (σ := { σ with looping := false }) true t
    have hpending : ({ σ with looping := false }.beginExpiry tag true).queue.pending =
        σ.queue.pending := TimerQueue.pending_setTimer rfl rfl
    rw [schedule, schedule, hrunning, hpending]
  | @prime now settime hlooping hnext =>
    have hshows : (σ.shows (.loop now settime)).toList = [] := by simp [shows, hnext]
    obtain ⟨timerFd, heq⟩ := σ.queue.primeTimerFd_spec settime
    rw [hshows, heq]
    rfl
  | @call i now e hi hcalled =>
    refine congrArg some (Eq.symm (schedule_congr (by rfl) fun t => ?_))
    have htags : (σ.expiries.set i { e with
        prevExpiry := now, invoked := some (σ.queue.timers e.tag).handler }).map (·.tag) =
          σ.expiries.map (·.tag) := ToMathlib.map_set_of_eq _ hi rfl
    rw [handling_iff, handling_iff, htags]
  | @finish i e hi hidle hcalled =>
    have hrunning : e.tag ∈ σ.schedule.running := ⟨e, List.mem_of_getElem? hi, rfl⟩
    have hrelease : σ.queue.releaseHandlerMemory = true → e.tag ∉ σ.queue.queuedTags := by
      intro hpending hmem
      have hreserved := h.inv.queued e.tag hmem
      rw [hC.2 hpending e hi] at hreserved
      cases hreserved
    have hshows : (σ.shows (.finish i)).toList = [.finish e.tag e.prevExpiry] := by
      simp [shows, hi]
    rw [hshows]
    refine (hrun _).trans ((if_pos hrunning).trans (congrArg some ?_))
    have hset : {timer | { σ with
          queue := σ.queue.endOneExpiry e.tag e.prevExpiry
          expiries := σ.expiries.eraseIdx i
          looping := e.fromLoop }.Handling timer} = {timer | σ.Handling timer} \ {e.tag} :=
      Set.ext fun t => handling_finish h.inv.distinct hi _ _ t
    rw [schedule, schedule, hset,
      TimerQueue.pending_endOneExpiry h.armInv.distinct hrelease e.prevExpiry]

instance (σ : State H) (a : Action H) : Decidable (σ.TimelyAndOrderly a) :=
  inferInstanceAs (Decidable (_ ∧ _))

/-- What the steps of a timely and orderly run show is a run of the schedule. -/
theorem run_trace (h : σ.ScheduleInv) {as : List (Action H)}
    (hrun : (machine H).run State.TimelyAndOrderly σ as = some τ) :
    (Schedule.machine TimerTag ℕ).run ToMathlib.Machine.Always σ.schedule
      ((machine H).trace State.shows σ as) = some τ.schedule := by
  refine ToMathlib.Machine.run_trace (I := ScheduleInv) ?_ h hrun
  intro σ a σ' h hC hσ'
  exact ⟨h.step hC hσ', step_schedule h hC hσ'⟩

/-- The timer queue refines the schedule: in a timely and orderly run, what the steps show is a run
of the schedule. So a timer is handled only when its deadline has come, when no queued timer has an
earlier one and when it is not being handled, and is then queued again or not as its interval
tells. -/
theorem run_schedule (hσ : (machine H).ReachableIn State.TimelyAndOrderly σ)
    (as : List (Action H)) (hrun : (machine H).run State.TimelyAndOrderly σ as = some τ) :
    (Schedule.machine TimerTag ℕ).run ToMathlib.Machine.Always σ.schedule
      ((machine H).trace State.shows σ as) = some τ.schedule :=
  run_trace (scheduleInv_of_reachable hσ) hrun

/-- A one-shot and a recurring timer are enqueued, and the recurring one expires. -/
def recurringExpiry : List (Action ℕ) :=
  [.reserve 20, .reserve 21, .enqueue 0 30 0 true, .enqueue 1 12 6 true, .operation, .loop 13 true,
    .call 0 14, .finish 0, .loop 15 true]

/-- The recurring timer is fired before the other, and its next deadline is counted from the time of
the call of its handler. -/
theorem run_schedule_recurring :
    ∃ τ : State ℕ, (Schedule.machine TimerTag ℕ).run ToMathlib.Machine.Always Schedule.empty
        [.add 0 30 0, .add 1 12 6, .fire 1 13, .finish 1 14] = some τ.schedule ∧
      τ.schedule.pending 0 = some (30, 0) ∧ τ.schedule.pending 1 = some (20, 6) := by
  have hempty : State.schedule ({} : State ℕ) = Schedule.empty := by
    have hrunning : {timer | State.Handling ({} : State ℕ) timer} = ∅ :=
      Set.eq_empty_of_forall_notMem fun t => by simp [Handling]
    rw [schedule, hrunning]
    rfl
  have hrun := run_schedule (σ := ({} : State ℕ)) (.init rfl) recurringExpiry
    (Option.some_get (by decide)).symm
  rw [hempty] at hrun
  exact ⟨_, hrun, by decide, by decide⟩

/-- A step queues no timer but the one that it enqueues. -/
theorem mem_queuedTags_of_step {a : Action H} (hσ' : σ.step a = some σ') {timer : TimerTag}
    (hqueued : timer ∈ σ'.queue.queuedTags) :
    timer ∈ σ.queue.queuedTags ∨
      ∃ expiry interval settime, a = .enqueue timer expiry interval settime := by
  cases transition_of_step hσ' with
  | @reserve handler hidle =>
    obtain ⟨reserved, heq⟩ := σ.reserve_eq handler
    rw [heq] at hqueued
    rcases σ.queue.reserve_cases handler with ⟨tag, rest, -, heq⟩ | ⟨-, heq⟩ | ⟨-, heq⟩
    all_goals
      rw [heq] at hqueued
      exact .inl hqueued
  | @enqueue timer' expiry interval settime hidle hexpiry =>
    obtain ⟨queuedTimers, timerFd, res, hperm, -, heq⟩ :=
      σ.queue.doAddTimer_spec timer' expiry interval settime
    rw [heq] at hqueued
    rcases List.mem_cons.mp (hperm.subset hqueued) with rfl | hold
    · exact .inr ⟨expiry, interval, settime, rfl⟩
    · exact .inl hold
  | @dequeue timer' settime stale hidle =>
    cases hvalid : (σ.queue.timers timer').isValid with
    | false =>
      rw [State.dequeue, TimerQueue.dequeue_of_not_valid hvalid] at hqueued
      exact .inl hqueued
    | true =>
      obtain ⟨queuedTimers, bin, timerFd, res, hperm, -, -, heq⟩ :=
        TimerQueue.dequeue_of_valid hvalid settime stale
      rw [State.dequeue, heq] at hqueued
      exact .inl (List.mem_of_mem_erase (hperm.subset hqueued))
  | @prime now settime hlooping hnext =>
    obtain ⟨timerFd, heq⟩ := σ.queue.primeTimerFd_spec settime
    rw [heq] at hqueued
    exact .inl hqueued
  | @finish i e hi hidle hcalled =>
    obtain ⟨queuedTimers, expiry, hsubset, heq⟩ :=
      σ.queue.endOneExpiry_spec e.tag e.prevExpiry
    rw [heq] at hqueued
    exact .inl (hsubset hqueued)
  | expireAtOnce | operation | expire | call => exact .inl hqueued

/-- A timer that is not queued is not taken up as expired. -/
theorem shows_ne_fire {a : Action H} {timer : TimerTag} (h : timer ∉ σ.queue.queuedTags)
    (now : ℕ) : σ.shows a ≠ some (.fire timer now) := by
  cases a with
  | loop now' settime =>
    intro hfire
    obtain ⟨tag, hnext, heq⟩ := Option.map_eq_some_iff.mp hfire
    obtain ⟨rfl, -⟩ := Event.fire.inj heq
    exact h (TimerQueue.mem_queuedTags_of_nextExpired hnext)
  | finish i => simp [shows]
  | enqueue | dequeue | reserve | operation | call => simp [shows]

/-- In every run, from whatever state, a timer that is not queued does not expire until it is
enqueued. -/
theorem not_expired_of_not_queued {timer : TimerTag} (hqueued : timer ∉ σ.queue.queuedTags)
    (as : List (Action H))
    (has : ∀ a ∈ as, ∀ expiry interval settime, a ≠ .enqueue timer expiry interval settime)
    (now : ℕ) : .fire timer now ∉ (machine H).trace State.shows σ as := by
  refine ToMathlib.Machine.notMem_trace (I := fun σ : State H => timer ∉ σ.queue.queuedTags)
    (P := fun a => ∀ expiry interval settime, a ≠ .enqueue timer expiry interval settime)
    ?_ hqueued has
  intro σ a σ' h ha hσ'
  refine ⟨fun hmem => ?_, shows_ne_fire h now⟩
  rcases mem_queuedTags_of_step hσ' hmem with hold | ⟨expiry, interval, settime, heq⟩
  · exact h hold
  · exact ha expiry interval settime heq

/-- The handler of the recurring timer dequeues its own timer. -/
def selfCancel : List (Action ℕ) := recurringExpiry.take 7 ++ [.dequeue 1 true 0]

/-- The handler returns, and the next deadline of the recurring timer comes. -/
def nextDeadline : List (Action ℕ) := [.finish 0, .loop 20 true, .operation, .loop 40 true]

/-- The timer is not handled again. -/
theorem not_expired_of_not_queued_self_cancel :
    ∃ σ : State ℕ, (machine ℕ).run ToMathlib.Machine.Always {} selfCancel = some σ ∧
      σ.Handling 1 ∧ ∀ now, .fire 1 now ∉ (machine ℕ).trace State.shows σ nextDeadline := by
  refine ⟨_, (Option.some_get (by decide)).symm, by decide, ?_⟩
  exact not_expired_of_not_queued (by decide) nextDeadline (by simp [nextDeadline])

end State

end Handlers

end Asrt.Timer
