import Asrt.Executor.WakeUps

/-!
# The effect of `Stop()`

`Stop()` sets `stop_requested_` and notifies every thread in `cv_.wait()`, but the predicate of the
wait does not look at `stop_requested_`: a thread that is notified while the queue is empty goes
back to sleep. `stop_is_effective` is therefore about the runs in which each `Stop()` finds
something in the queue or nobody in the wait, and `stop_is_effective_empty_queue` is a run with
another `Stop()`.

A stopped executor takes nothing from the queue, so what was queued at the time of `Stop()` is still
there when the notified threads evaluate the predicate. A thread that sleeps in the reactor has
asked for the interrupt (`State.Inv`), and the eventfd is read by this thread only.
-/

namespace Asrt.WorkerPool

open Executor (OpId RunMode)

namespace State

variable {T : Type} [Fintype T] [DecidableEq T] {s s' : State T} {t u : T} {th : Thread}

/-- A `Stop()` that takes effect finds something in the queue or nobody in the wait. -/
def StopReachesWaiters (s : State T) : Action T → Prop
  | .stop _ | .finishStop _ =>
    s.operationQueue = [] → ∀ t, (s.threads t).phase.isWaiting = false
  | _ => True

instance (s : State T) : (a : Action T) → Decidable (s.StopReachesWaiters a)
  | .stop _ | .finishStop _ => inferInstanceAs (Decidable (_ → ∀ _, _))
  | .enter _ _ | .processNext _ _ | .wake _ | .spuriousWake _ | .reactorReturn _ _ _
  | .reactorError _ | .reactorRelock _ | .post _ _ | .dispatch _ _ | .push _ _
  | .enqueuePostJobArrival _ _ _ | .account _ | .relock _ | .onJobArrival _ | .onJobCompletion _
  | .restart _ | .useReactorService _ _ => inferInstanceAs (Decidable True)

/-- Nobody sleeps, and nobody will go back to sleep. -/
structure Roused (s : State T) : Prop where
  awake : ∀ t, ¬ s.IsBlocked t
  queue : ∀ t, (s.threads t).phase.isWaiting = true → s.operationQueue ≠ []

omit [Fintype T] in
/-- A step that replaces one thread by one that does not sleep. -/
theorem Roused.update (h : s.Roused) (hthreads : s'.threads = Function.update s.threads t th)
    (hcounter : s'.unblockCounter = s.unblockCounter)
    (hqueue : s.operationQueue ≠ [] → s'.operationQueue ≠ [])
    (hth : th.phase = (s.threads t).phase ∨
      th.phase.isBlocked 0 = false ∧ th.phase.isWaiting = false) : s'.Roused := by
  refine ⟨fun v hv => ?_, fun v hv => ?_⟩
  · rw [IsBlocked, hthreads, hcounter] at hv
    by_cases hvt : v = t
    · subst hvt
      rw [Function.update_self] at hv
      rcases hth with hth | ⟨hth, -⟩
      · exact h.awake v (by rw [IsBlocked, ← hth]; exact hv)
      · -- what does not sleep before an unwritten eventfd does not sleep at all
        rw [Phase.isBlocked_anti (Nat.zero_le _) hv] at hth
        cases hth
    · rw [Function.update_of_ne hvt] at hv
      exact h.awake v hv
  · rw [hthreads] at hv
    refine hqueue ?_
    by_cases hvt : v = t
    · subst hvt
      rw [Function.update_self] at hv
      rcases hth with hth | ⟨-, hth⟩
      · exact h.queue v (hth ▸ hv)
      · rw [hth] at hv
        cases hv
    · rw [Function.update_of_ne hvt] at hv
      exact h.queue v hv

omit [Fintype T] [DecidableEq T] in
/-- A wake-up. -/
theorem Roused.woken (h : s.Roused) (hwoken : s.Woken s') : s'.Roused := by
  refine ⟨fun v hv => ?_, fun v hv => ?_⟩
  · have hphase := hwoken.phase v
    obtain ⟨c, ths, hc, -, rfl⟩ := hwoken
    refine h.awake v (Phase.isBlocked_anti hc ?_)
    rw [IsBlocked] at hv
    rcases hphase with heq | heq <;> rw [heq] at hv
    exacts [hv, Phase.isBlocked_of_notify hv]
  · rw [hwoken.operationQueue]
    refine h.queue v ?_
    rcases hwoken.phase v with heq | heq <;> rw [heq] at hv
    exacts [hv, (Phase.isWaiting_notify _).symm.trans hv]

omit [DecidableEq T] in
/-- `Stop()` rouses everybody, unless the queue is empty and somebody is in the wait. -/
theorem Inv.roused_stop (h : s.Inv)
    (hC : s.operationQueue = [] → ∀ t, (s.threads t).phase.isWaiting = false) :
    s.stop.Roused := by
  obtain ⟨hwoken, hnotified⟩ := woken_wakeAll { s with stopRequested := true }
  have hqueue : s.stop.operationQueue = s.operationQueue := hwoken.operationQueue
  refine ⟨fun v hv => ?_, fun v hv hnil => ?_⟩
  · rw [IsBlocked, State.stop, hnotified v, Phase.isBlocked_iff] at hv
    rcases hv with ⟨mode, hv⟩ | ⟨⟨mode, hv⟩, hzero⟩
    · -- everybody in the wait is notified
      have hnot := (s.threads v).phase.isUnnotified_notify
      rw [show (s.threads v).phase.notify = _ from hv] at hnot
      cases hnot
    · -- the thread in the reactor has asked for the interrupt
      have hphase : (s.threads v).phase = .inReactor mode false := by
        cases hphase : (s.threads v).phase <;> simp_all [Thread.notify, Phase.notify]
      have hservice := h.hasReactorService (t := v) (by rw [hphase]; rfl)
      have hinterrupt := h.interrupt v mode hphase
      simp only [wakeAll, hservice, hinterrupt, Bool.and_self, if_true] at hzero
      exact absurd hzero (woken_wakeup _).2.ne'
  · rw [hqueue] at hnil
    rw [State.stop, hnotified v, Thread.notify, Phase.isWaiting_notify] at hv
    exact absurd (hC hnil v) (by rw [show (s.threads v).phase.isWaiting = true from hv]; decide)

/-- What is pushed wakes up a worker. -/
theorem Roused.enqueue (h : s.Roused) {op : ExecutorOperation} {u : T}
    (henqueue : s.enqueue op u = some s') : s'.Roused := by
  have hpushed : { s with operationQueue := s.operationQueue ++ [op] }.Roused :=
    ⟨h.awake, fun _ _ => by simp⟩
  exact hpushed.woken (woken_of_wakeOne henqueue)

/-- The thread that returns from the reactor's `Run()` is the only one that was in it, so nobody
misses the event that it has read. -/
theorem Inv.roused_reactorReturn (hinv : s.Inv) (h : s.Roused) {t : T} {mode : RunMode}
    {pending unblocked : Bool} {ops : List OpId}
    (hphase : (s.threads t).phase = .inReactor mode pending)
    (hreturn : s.reactorReturn t mode ops unblocked = some s') : s'.Roused := by
  obtain ⟨-, hs'⟩ := Option.ite_none_left_eq_some.mp hreturn
  obtain rfl := Option.some.inj hs'
  refine ⟨fun v hv => ?_, fun v hv => ?_⟩
  · by_cases hvt : v = t
    · subst hvt
      rw [IsBlocked, setThread_threads_self] at hv
      cases hv
    · rw [IsBlocked, setThread_threads_of_ne _ hvt, Phase.isBlocked_iff] at hv
      rcases hv with hwait | ⟨⟨mode', hr'⟩, -⟩
      · exact h.awake v (Phase.isBlocked_iff.mpr (.inl hwait))
      · exact absurd (hinv.eq_of_inReactorBranch (by rw [show _ = _ from hr']; rfl)
          (by rw [hphase]; rfl)) hvt
  · by_cases hvt : v = t
    · subst hvt
      rw [setThread_threads_self] at hv
      cases hv
    · rw [setThread_threads_of_ne _ hvt] at hv
      exact h.queue v hv

/-- After `Stop()` everybody stays roused. -/
theorem Roused.of_transition {a : Action T} (hinv : s.Inv) (h : s.stopRequested = true → s.Roused)
    (ha : s.Transition a s') (hC : s.StopReachesWaiters a) (hstop : s'.stopRequested = true) :
    s'.Roused := by
  cases ha with
  | @finishStop t => exact (hinv.roused_stop hC).update (t := t) rfl rfl id (.inl rfl)
  | stop => exact hinv.roused_stop hC
  | restart => cases hstop
  | @enter t mode _ =>
    have hstop : s.stopRequested = true := by
      simp only [State.enter] at hstop
      split at hstop <;> exact hstop
    simp only [State.enter]
    split
    · exact (h hstop).update rfl rfl id (.inl rfl)
    · exact (h hstop).update rfl rfl id (.inr ⟨rfl, rfl⟩)
  | leave _ _ => exact (h hstop).update rfl rfl id (.inr ⟨rfl, rfl⟩)
  -- a stopped executor takes nothing from the queue and does not wait
  | takeNull _ hnot _ hwake | takeJob _ hnot _ hwake =>
    exact absurd (hstop.symm.trans ((woken_of_wakeForPending hwake).stopRequested.trans hnot))
      Bool.true_eq_false.mp
  | wait _ hnot _ =>
    rw [show s.stopRequested = true from hstop] at hnot
    cases hnot
  | @wake t mode hphase =>
    have hstop : s.stopRequested = true := by
      simp only [State.wake] at hstop
      split at hstop <;> exact hstop
    have hqueue := (h hstop).queue t (by rw [hphase]; rfl)
    simp only [State.wake, if_neg hqueue]
    exact (h hstop).update rfl rfl id (.inr ⟨rfl, rfl⟩)
  | @spuriousWake t mode hphase =>
    exact absurd (by rw [IsBlocked, hphase]; rfl) ((h hstop).awake t)
  | @reactorReturn t mode pending ops unblocked s' hphase hreturn =>
    have hstop : s.stopRequested = true := by
      obtain ⟨-, hs'⟩ := Option.ite_none_left_eq_some.mp hreturn
      obtain rfl := Option.some.inj hs'
      exact hstop
    exact hinv.roused_reactorReturn (h hstop) hphase hreturn
  | reactorError _ => exact (h hstop).update rfl rfl id (.inr ⟨rfl, rfl⟩)
  | reactorRelock _ =>
    exact (h hstop).update rfl rfl (fun _ => by simp [State.reactorRelock, setThread])
      (.inr ⟨rfl, rfl⟩)
  | postOutside _ | dispatchOutside _ => exact (h hstop).update rfl rfl id (.inr ⟨rfl, rfl⟩)
  | postInside _ | enqueuePrivate _ => exact (h hstop).update rfl rfl id (.inl rfl)
  | dispatchInside => exact h hstop
  | @push t u op s' _ hpush =>
    have hr := h ((woken_of_wakeOne hpush).stopRequested.symm.trans hstop)
    have hset : (s.setPhase t .client).Roused := hr.update rfl rfl id (.inr ⟨rfl, rfl⟩)
    exact hset.enqueue hpush
  | @enqueue t u op s' henqueue =>
    exact (h ((woken_of_wakeOne henqueue).stopRequested.symm.trans hstop)).enqueue henqueue
  | @account t mode _ _ =>
    obtain ⟨count, info, pending, heq⟩ := s.account_eq t mode
    rw [heq] at hstop ⊢
    exact (h hstop).update rfl rfl id (.inr ⟨rfl, rfl⟩)
  | @relock t mode _ =>
    refine (h hstop).update rfl rfl (fun hne => ?_) (.inr (by cases mode <;> exact ⟨rfl, rfl⟩))
    simp [State.relock, setThread, hne]
  | @onJobArrival t => exact ⟨(h hstop).awake, (h hstop).queue⟩
  | @onJobCompletion t =>
    obtain ⟨count, pending, heq⟩ := s.onJobCompletion_eq t
    rw [heq] at hstop ⊢
    exact (h hstop).update rfl rfl id (.inl rfl)
  | useReactorService huse =>
    simp only [State.useReactorService, startReactorTask] at huse
    split at huse
    · obtain rfl := Option.some.inj huse
      exact h hstop
    split at huse
    · obtain rfl := Option.some.inj huse
      exact ⟨(h hstop).awake, (h hstop).queue⟩
    · rename_i hnot
      exact absurd ((woken_of_wakeOne huse).stopRequested.symm.trans hstop) hnot

end State

open State in
/-- `Stop()` is effective. Take any run in which every `Stop()`, explicit or on depletion, takes
effect while something is queued or nobody is in `cv_.wait()`. Once the executor is stopped no
worker sleeps, neither in the wait nor in the reactor, and a wait that is still to return from its
notification will find its predicate true. -/
theorem stop_is_effective {T : Type} [Fintype T] [DecidableEq T] {s : State T}
    (hs : (machine T).ReachableIn StopReachesWaiters s) (hstop : s.stopRequested = true) (t : T) :
    ¬ s.IsBlocked t ∧ ((s.threads t).phase.isWaiting = true → s.operationQueue ≠ []) := by
  have hinv : s.Inv ∧ (s.stopRequested = true → s.Roused) := by
    refine hs.invariant (I := fun s => s.Inv ∧ (s.stopRequested = true → s.Roused))
      (fun s hinit => ?_) fun s a s' h hC hs' => ?_
    · rw [show s = { singleThread := s.singleThread } from hinit]
      exact ⟨Inv.init _, fun hstop => by cases hstop⟩
    · exact ⟨h.1.step hs', fun hstop =>
        Roused.of_transition h.1 h.2 (transition_of_step hs') hC hstop⟩
  exact ⟨(hinv.2 hstop).awake t, (hinv.2 hstop).queue t⟩

open State in
/-- A worker in the wait and a job that reaches the queue together with the stop: the worker is
notified, and will find the queue non-empty. -/
theorem stop_is_effective_posted_job :
    ∃ s : State (Fin 2), (machine (Fin 2)).ReachableIn StopReachesWaiters s ∧
      s.stopRequested = true ∧ (s.threads 0).phase.isWaiting = true ∧ s.operationQueue ≠ [] ∧
      ∀ t, ¬ s.IsBlocked t := by
  have hs := ToMathlib.Machine.reachableIn_get_run (M := machine (Fin 2)) (C := StopReachesWaiters)
    (s := { singleThread := false })
    (l := [.onJobArrival 1, .enter 0 .run, .processNext 0 0, .post 1 3, .push 1 0, .stop 1]) rfl
    (by decide)
  exact ⟨_, hs, by decide, by decide, (stop_is_effective hs (by decide) 0).2 (by decide),
    fun t => (stop_is_effective hs (by decide) t).1⟩

open State in
/-- A worker waits for jobs and the queue is empty. `Stop()` notifies it, it finds the queue empty
and goes back to sleep, and `Run()` does not return. -/
theorem stop_is_effective_empty_queue :
    ∃ s : State (Fin 2), (machine (Fin 2)).Reachable s ∧ s.stopRequested = true ∧
      s.IsWorker 0 ∧ s.IsBlocked 0 := by
  have hs := ToMathlib.Machine.reachableIn_get_run (M := machine (Fin 2))
    (C := ToMathlib.Machine.Always) (s := {})
    (l := [.onJobArrival 1, .enter 0 .run, .processNext 0 0, .stop 1, .wake 0]) rfl (by decide)
  exact ⟨_, hs, by decide, by decide, by decide⟩

end Asrt.WorkerPool
