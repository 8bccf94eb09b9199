import Asrt.Executor.ReactorMarker

/-!
# Wake-ups

A worker sleeps in `cv_.wait()` or in the reactor's `Run()` with the timeout `-1`. The module proves
when the wake-ups of `WakeOne()` and `WakeAll()` reach the sleepers.

* `State.Inv` holds in every reachable state: `cv_wait_count_` is the number of threads in the wait,
  there is at most one reactor marker, and a thread that sleeps in the reactor has set
  `reactor_needs_interrupt_`. It makes `WakeOne()` effective (`Covered.of_wakeOne`).
* `Covered.of_reachable`: an operation in the queue keeps a worker awake, and while a worker is in
  the reactor it keeps another one awake, should there be one; so the worker in the reactor may even
  leave with an error. Only an executor meant for one thread does not wake anybody before it polls
  the reactor with pending jobs.
* `no_lost_wake_up` is the absence of lost wake-ups in the runs in which the reactor's `Run()`
  returns no error.
-/

namespace Asrt.WorkerPool

open Executor (OpId RunMode ThreadInfo fetchAdd fetchSub)
open ToMathlib (sum_update_add le_sum add_le_sum)

/-- The thread sleeps: it is in the wait and no notification is pending, or it is in the reactor's
`Run()` with the timeout `-1` and the eventfd has not been written. -/
def Phase.isBlocked (unblockCounter : ℕ) : Phase → Bool
  | waiting _ false => true
  | inReactor _ false => unblockCounter = 0
  | _ => false

/-- The two ways to sleep. -/
theorem Phase.isBlocked_iff {c : ℕ} {ph : Phase} : ph.isBlocked c = true ↔
    (∃ mode, ph = .waiting mode false) ∨ (∃ mode, ph = .inReactor mode false) ∧ c = 0 := by
  cases ph with
  | waiting _ notified => cases notified <;> simp [isBlocked]
  | inReactor _ pending => cases pending <;> simp [isBlocked]
  | _ => simp [isBlocked]

/-- A thread that sleeps before a written eventfd would sleep before one that was written less. -/
theorem Phase.isBlocked_anti {c c' : ℕ} (hc : c ≤ c') {ph : Phase} (h : ph.isBlocked c' = true) :
    ph.isBlocked c = true := by
  rw [isBlocked_iff] at h ⊢
  refine h.imp_right fun hr => ⟨hr.1, ?_⟩
  have hzero := hr.2
  omega

/-- A notification puts nobody to sleep. -/
theorem Phase.isBlocked_of_notify {c : ℕ} {ph : Phase} (h : ph.notify.isBlocked c = true) :
    ph.isBlocked c = true := by
  cases ph with
  | waiting _ _ => cases h
  | _ => exact h

/-- The thread is a worker that does not sleep and is not in the reactor's `Run()`. -/
def Phase.isActive : Phase → Bool
  | processing _ | waiting _ true | reactorReturned _ | running _ _ | accounted _ => true
  | _ => false

/-- The thread is in the reactor's `Run()` with the timeout `0`. -/
def Phase.isPolling : Phase → Bool
  | inReactor _ pending => pending
  | _ => false

/-- The entry point a worker is in. -/
def Phase.mode : Phase → Option RunMode
  | client | posting _ => none
  | processing mode | waiting mode _ | inReactor mode _ | reactorReturned mode | running mode _
  | accounted mode => some mode

namespace State

variable {T : Type} [Fintype T] [DecidableEq T] {s s' : State T} {t u : T} {th : Thread}

/-- The thread is inside `Run()` or `RunOne()`. -/
def IsWorker (s : State T) (t : T) : Prop := (s.threads t).phase.isWorker = true

/-- The thread sleeps. -/
def IsBlocked (s : State T) (t : T) : Prop := (s.threads t).phase.isBlocked s.unblockCounter = true

instance (s : State T) (t : T) : Decidable (s.IsWorker t) := inferInstanceAs (Decidable (_ = true))

instance (s : State T) (t : T) : Decidable (s.IsBlocked t) := inferInstanceAs (Decidable (_ = true))

/-! ## The invariant of the sleepers -/

/-- The bookkeeping that the wake-ups read describes the sleepers. -/
structure Sleepers (s : State T) : Prop where
  /-- `cv_wait_count_` counts the threads in the wait. -/
  waits : s.cvWaitCount = s.waits
  /-- A thread in the reactor with the timeout `-1` has asked to be interrupted. -/
  interrupt : ∀ t mode, (s.threads t).phase = .inReactor mode false →
    s.reactorNeedsInterrupt = true

/-- The invariant of the sleepers and of the reactor marker. -/
structure Inv (s : State T) : Prop extends Sleepers s where
  /-- There is at most one reactor marker, and none without a reactor. -/
  turns : s.reactorTurns ≤ s.hasReactorService.toNat

/-- Two threads in the reactor branch are the same one. -/
theorem Inv.eq_of_inReactorBranch (h : s.Inv) (ht : (s.threads t).phase.isInReactorBranch = true)
    (hu : (s.threads u).phase.isInReactorBranch = true) : t = u := by
  by_contra hne
  have hboth := add_le_sum Thread.reactorTurns s.threads hne
  have hturns := h.turns
  have hone := Bool.toNat_le s.hasReactorService
  simp only [Thread.reactorTurns, ht, hu, Bool.toNat_true, State.reactorTurns] at hboth hturns
  omega

omit [DecidableEq T] in
/-- A marker in the queue is with no thread. -/
theorem Inv.not_inReactorBranch_of_mem (h : s.Inv) (hnull : .null ∈ s.operationQueue) (t : T) :
    (s.threads t).phase.isInReactorBranch = false := by
  refine not_inReactorBranch ?_ t
  have hcount := List.count_pos_iff.mpr hnull
  have hturns := h.turns
  have hone := Bool.toNat_le s.hasReactorService
  simp only [State.reactorTurns] at hturns
  omega

omit [DecidableEq T] in
/-- A thread in the reactor branch has a reactor. -/
theorem Inv.hasReactorService (h : s.Inv) (ht : (s.threads t).phase.isInReactorBranch = true) :
    s.hasReactorService = true := by
  have hle := le_sum Thread.reactorTurns s.threads t
  have hturns := h.turns
  simp only [Thread.reactorTurns, ht, Bool.toNat_true, State.reactorTurns] at hle hturns
  cases hservice : s.hasReactorService with
  | true => rfl
  | false =>
    rw [hservice, Bool.toNat_false] at hturns
    omega

/-- The number of markers stays within its bound. -/
theorem Inv.turns_of_transition {a : Action T} (h : s.Inv) (ha : s.Transition a s') :
    s'.reactorTurns ≤ s'.hasReactorService.toNat := by
  have hturns := reactorTurns_of_transition ha
  have hle := h.turns
  rw [hasReactorService_of_transition ha]
  cases a with
  | useReactorService t u =>
    cases hservice : s.hasReactorService <;> cases hstop : s.stopRequested <;>
      simp only [newTurns, lostTurns, hservice, hstop, usesReactor, Bool.toNat_true,
        Bool.toNat_false, Bool.not_true, Bool.not_false, Bool.and_true, Bool.and_false,
        Bool.or_true] at hturns hle ⊢ <;>
      omega
  | _ =>
    simp only [newTurns, lostTurns, usesReactor, Bool.or_false] at hturns ⊢
    omega

/-- A step that replaces thread `t` keeps track of the sleepers if it counts the wait of `t`, the
thread does not go to sleep in the reactor, and the flag is not reset under another sleeper. -/
theorem Sleepers.update (h : s.Sleepers) (hthreads : s'.threads = Function.update s.threads t th)
    (hwaits : s'.cvWaitCount + (s.threads t).waits = s.cvWaitCount + th.waits)
    (hth : ∀ mode, th.phase = .inReactor mode false → s'.reactorNeedsInterrupt = true)
    (hflag : ∀ v mode, v ≠ t → (s.threads v).phase = .inReactor mode false →
      s'.reactorNeedsInterrupt = s.reactorNeedsInterrupt) : s'.Sleepers := by
  refine ⟨?_, fun v mode hv => ?_⟩
  · have hsum := waits_eq hthreads
    have hold := h.waits
    omega
  · rw [hthreads] at hv
    by_cases hvt : v = t
    · subst hvt
      rw [Function.update_self] at hv
      exact hth mode hv
    · rw [Function.update_of_ne hvt] at hv
      rw [hflag v mode hvt hv]
      exact h.interrupt v mode hv

/-- A step that moves thread `t` between phases in which it neither waits nor uses the reactor. -/
theorem Sleepers.congr (h : s.Sleepers) (hthreads : s'.threads = Function.update s.threads t th)
    (hcount : s'.cvWaitCount = s.cvWaitCount)
    (hflag : s'.reactorNeedsInterrupt = s.reactorNeedsInterrupt)
    (hwaits : th.phase.isWaiting = (s.threads t).phase.isWaiting)
    (hth : ∀ mode, th.phase = .inReactor mode false → (s.threads t).phase = .inReactor mode false) :
    s'.Sleepers := by
  refine h.update hthreads ?_ (fun mode hmode => ?_) (fun _ _ _ _ => hflag)
  · simp only [Thread.waits, hwaits, hcount]
  · rw [hflag]
    exact h.interrupt t mode (hth mode hmode)

omit [DecidableEq T] in
/-- A wake-up keeps track of the sleepers. -/
theorem Sleepers.woken (h : s.Sleepers) (hwoken : s.Woken s') : s'.Sleepers := by
  have hwaits := hwoken.waits
  obtain ⟨c, ths, -, hths, rfl⟩ := hwoken
  refine ⟨h.waits.trans hwaits.symm, fun t mode ht => ?_⟩
  refine h.interrupt t mode ?_
  rcases hths t with htt | htt
  · exact (congrArg Thread.phase htt).symm.trans ht
  · have hnotify : (s.threads t).phase.notify = .inReactor mode false :=
      (congrArg Thread.phase htt).symm.trans ht
    cases hphase : (s.threads t).phase <;> simp_all [Phase.notify]

/-- A post keeps track of the sleepers. -/
theorem Sleepers.enqueue {op : ExecutorOperation} (h : s.Sleepers)
    (hs' : s.enqueue op u = some s') : s'.Sleepers :=
  Sleepers.woken (s := { s with operationQueue := s.operationQueue ++ [op] }) ⟨h.waits, h.interrupt⟩
    (woken_of_wakeOne hs')

omit [DecidableEq T] in
/-- `Stop()` keeps track of the sleepers. -/
theorem Sleepers.stop (h : s.Sleepers) : s.stop.Sleepers :=
  Sleepers.woken (s := { s with stopRequested := true }) ⟨h.waits, h.interrupt⟩ (woken_wakeAll _).1

/-- So does the wake-up for the rest of the queue. -/
theorem Sleepers.wakeForPending {rest : List ExecutorOperation} (h : s.Sleepers)
    (hs' : { s with operationQueue := rest }.wakeForPending u = some s') : s'.Sleepers :=
  Sleepers.woken (s := { s with operationQueue := rest }) ⟨h.waits, h.interrupt⟩
    (woken_of_wakeForPending hs')

/-- Every step keeps track of the sleepers. -/
theorem Inv.sleepers_of_transition {a : Action T} (h : s.Inv) (ha : s.Transition a s') :
    s'.Sleepers := by
  have hsl := h.toSleepers
  cases ha with
  | @finishStop t => exact hsl.stop.congr (t := t) rfl rfl rfl rfl fun _ => id
  | enter hphase =>
    simp only [State.enter]
    split
    · exact hsl.congr rfl rfl rfl rfl fun _ => id
    · exact hsl.congr rfl rfl rfl (by rw [hphase]; rfl) fun _ => Phase.noConfusion
  | leave hphase _ => exact hsl.congr rfl rfl rfl (by rw [hphase]; rfl) fun _ => Phase.noConfusion
  | @takeNull t u mode rest s₁ hphase _ hqueue hwake =>
    have hwoken := woken_of_wakeForPending hwake
    have hth : s₁.threads t = s.threads t := hwoken.threads_eq (by rw [hphase]; rfl)
    refine (hsl.wakeForPending hwake).update (t := t) rfl ?_ (fun mode' hmode => ?_)
      fun v mode' hv hphase' => ?_
    · simp [hth, hphase, Thread.waits, Phase.isWaiting, setPhase, setThread]
    · -- the timeout is `-1` only if nothing else is queued
      show rest.isEmpty = true
      simpa using (Phase.inReactor.inj hmode).2
    · -- the marker was in the queue, so no thread was in the branch
      have hnot := h.not_inReactorBranch_of_mem (by rw [hqueue]; exact List.mem_cons_self) v
      have hin := hwoken.isInReactorBranch v
      rw [hphase', show (s.threads v).phase.isInReactorBranch = false from hnot] at hin
      cases hin
  | @takeJob t u mode op rest s₁ hphase _ hqueue hwake =>
    have hth : s₁.threads t = s.threads t :=
      (woken_of_wakeForPending hwake).threads_eq (by rw [hphase]; rfl)
    exact (hsl.wakeForPending hwake).congr (t := t) rfl rfl rfl (by rw [hth, hphase]; rfl)
      fun _ => Phase.noConfusion
  | wait hphase _ _ =>
    refine hsl.update rfl ?_ (fun _ => Phase.noConfusion) fun _ _ _ _ => rfl
    simp [hphase, Thread.waits, Phase.isWaiting, setPhase, setThread]
  | @wake t mode hphase =>
    simp only [State.wake]
    split
    · exact hsl.congr rfl rfl rfl (by rw [hphase]; rfl) fun _ => Phase.noConfusion
    · -- the thread itself was counted
      have hone : (s.threads t).waits = 1 := by rw [Thread.waits, hphase]; rfl
      have hpos : (s.threads t).waits ≤ s.cvWaitCount := h.waits ▸ le_sum Thread.waits s.threads t
      refine hsl.update (t := t) rfl ?_ (fun _ => Phase.noConfusion) fun _ _ _ _ => rfl
      show s.cvWaitCount - 1 + (s.threads t).waits = s.cvWaitCount + 0
      omega
  | spuriousWake hphase =>
    exact hsl.congr rfl rfl rfl (by rw [hphase]; rfl) fun _ => Phase.noConfusion
  | reactorReturn hphase hreturn =>
    obtain ⟨-, hs'⟩ := Option.ite_none_left_eq_some.mp hreturn
    obtain rfl := Option.some.inj hs'
    exact hsl.congr rfl rfl rfl (by rw [hphase]; rfl) fun _ => Phase.noConfusion
  | reactorError hphase =>
    exact hsl.congr rfl rfl rfl (by rw [hphase]; rfl) fun _ => Phase.noConfusion
  | @reactorRelock t mode hphase =>
    refine hsl.update rfl ?_ (fun _ => Phase.noConfusion) fun v mode' hv hphase' => ?_
    · simp [hphase, Thread.waits, Phase.isWaiting, State.reactorRelock, setThread]
    · -- no other thread is in the branch
      exact absurd (h.eq_of_inReactorBranch (t := v) (u := t) (by rw [hphase']; rfl)
        (by rw [hphase]; rfl)) hv
  | postOutside hphase | dispatchOutside hphase =>
    exact hsl.congr rfl rfl rfl (by rw [hphase]; rfl) fun _ => Phase.noConfusion
  | postInside _ | enqueuePrivate _ => exact hsl.congr rfl rfl rfl rfl fun _ => id
  | dispatchInside => exact hsl
  | @push t u op s' hphase hpush =>
    refine Sleepers.enqueue (s := s.setPhase t .client) ?_ hpush
    exact hsl.congr rfl rfl rfl (by rw [hphase]; rfl) fun _ => Phase.noConfusion
  | enqueue henqueue => exact hsl.enqueue henqueue
  | @account t mode _ hphase =>
    obtain ⟨count, info, pending, heq⟩ := s.account_eq t mode
    rw [heq]
    exact hsl.congr rfl rfl rfl (by rw [hphase]; rfl) fun _ => Phase.noConfusion
  | @relock t mode hphase =>
    cases mode <;> exact hsl.congr rfl rfl rfl (by rw [hphase]; rfl) fun _ => Phase.noConfusion
  | onJobArrival | restart => exact ⟨h.waits, h.interrupt⟩
  | @onJobCompletion t =>
    obtain ⟨count, pending, heq⟩ := s.onJobCompletion_eq t
    rw [heq]
    exact hsl.congr rfl rfl rfl rfl fun _ => id
  | stop => exact hsl.stop
  | useReactorService huse =>
    simp only [State.useReactorService, startReactorTask] at huse
    split at huse
    · obtain rfl := Option.some.inj huse
      exact hsl
    split at huse
    · obtain rfl := Option.some.inj huse
      exact ⟨h.waits, h.interrupt⟩
    · exact Sleepers.enqueue (s := { s with hasReactorService := true }) ⟨h.waits, h.interrupt⟩ huse

omit [DecidableEq T] in
/-- The invariant holds when nothing has been posted. -/
theorem Inv.init (b : Bool) : ({ singleThread := b } : State T).Inv where
  waits := by simp [State.waits, Thread.waits, Phase.isWaiting]
  interrupt _ _ h := nomatch h
  turns := by simp [State.reactorTurns, Thread.reactorTurns, Phase.isInReactorBranch]

/-- The invariant is kept by every step. -/
theorem Inv.step {a : Action T} (h : s.Inv) (hs' : s.step a = some s') : s'.Inv :=
  ⟨h.sleepers_of_transition (transition_of_step hs'),
    h.turns_of_transition (transition_of_step hs')⟩

/-! ## A worker is awake while something is queued -/

/-- The thread is a worker and does not sleep. -/
def IsAwake (s : State T) (t : T) : Prop := s.IsWorker t ∧ ¬ s.IsBlocked t

/-- If something is queued and a thread other than `x` is a worker, then one such worker is
awake. -/
def Served (s : State T) (x : Option T) : Prop :=
  s.operationQueue ≠ [] → (∃ v, some v ≠ x ∧ s.IsWorker v) → ∃ v, some v ≠ x ∧ s.IsAwake v

/-- Something in the queue keeps a worker awake. While a thread is in the reactor's `Run()`, having
woken another worker for the rest of the queue or having left it empty, something in the queue keeps
a worker awake besides this thread. -/
structure Covered (s : State T) : Prop where
  served : s.Served none
  besides : ∀ t mode pending, (s.threads t).phase = .inReactor mode pending →
    s.singleThread = false ∨ pending = false → s.Served (some t)

omit [Fintype T] [DecidableEq T] in
/-- An awake worker is enough. -/
theorem served_of_awake {x : Option T} (h : s.IsAwake t) (hx : some t ≠ x) : s.Served x :=
  fun _ _ => ⟨t, hx, h⟩

omit [Fintype T] [DecidableEq T] in
/-- An active worker is awake. -/
theorem isAwake_of_active (h : (s.threads t).phase.isActive = true) : s.IsAwake t := by
  rw [IsAwake, IsWorker, IsBlocked]
  revert h
  cases (s.threads t).phase with
  | waiting _ notified => cases notified <;> simp [Phase.isActive, Phase.isWorker, Phase.isBlocked]
  | _ => simp [Phase.isActive, Phase.isWorker, Phase.isBlocked]

omit [Fintype T] [DecidableEq T] in
/-- An active worker is enough. -/
theorem Covered.of_active (h : (s.threads t).phase.isActive = true) : s.Covered := by
  have hawake := isAwake_of_active h
  refine ⟨served_of_awake hawake (Option.some_ne_none t), fun v mode pending hv _ => ?_⟩
  refine served_of_awake hawake fun htv => ?_
  obtain rfl := Option.some.inj htv
  rw [hv] at h
  cases h

omit [Fintype T] [DecidableEq T] in
/-- An empty queue needs nobody. -/
theorem Covered.of_nil (h : s.operationQueue = []) : s.Covered :=
  ⟨fun hne => absurd h hne, fun _ _ _ _ _ hne => absurd h hne⟩

omit [Fintype T] [DecidableEq T] in
/-- A step that leaves the queue, makes no worker and puts nobody to sleep. -/
theorem Served.frame {x : Option T} (h : s.Served x)
    (hqueue : s'.operationQueue = s.operationQueue)
    (hworker : ∀ v, some v ≠ x → s'.IsWorker v → s.IsWorker v)
    (hawake : ∀ v, some v ≠ x → s.IsAwake v → s'.IsAwake v) : s'.Served x := by
  rintro hne ⟨v, hv, hvw⟩
  obtain ⟨w, hw, hwa⟩ := h (hqueue ▸ hne) ⟨v, hv, hworker v hv hvw⟩
  exact ⟨w, hw, hawake w hw hwa⟩

/-- `notify_one()` with a thread in the wait leaves a notified one. -/
theorem exists_notified_of_notifyOne (hs' : s.notifyOne u = some s')
    (hwait : (s.threads t).phase.isWaiting = true) :
    ∃ v mode, (s.threads v).phase.isWaiting = true ∧ (s'.threads v).phase = .waiting mode true := by
  unfold notifyOne at hs'
  split at hs'
  · rename_i hu
    obtain rfl := Option.some.inj hs'
    cases hphase : (s.threads u).phase with
    | waiting mode notified =>
      refine ⟨u, mode, by rw [hphase]; rfl, ?_⟩
      simp [setThread, Thread.notify, hphase, Phase.notify]
    | _ => simp [hphase, Phase.isUnnotified] at hu
  split at hs'
  · cases hs'
  · -- nobody is blocked, so the thread in the wait has been notified before
    rename_i hnone
    obtain rfl := Option.some.inj hs'
    cases hphase : (s.threads t).phase with
    | waiting mode notified =>
      cases notified with
      | true => exact ⟨t, mode, hwait, hphase⟩
      | false => exact absurd ⟨t, by rw [hphase]; rfl⟩ hnone
    | _ => simp [hphase, Phase.isWaiting] at hwait

/-- `WakeOne()` leaves a worker awake. It leaves one awake besides `x` if `x` is not in the wait and
nobody else is in the reactor. -/
theorem Inv.served_of_wakeOne (h : s.Inv) {x : Option T} (hs' : s.wakeOne u = some s')
    (hx : ∀ v, x = some v → (s.threads v).phase.isWaiting = false)
    (hothers : x = none ∨ ∀ v, some v ≠ x → (s.threads v).phase.isInReactorBranch = false) :
    s'.Served x := by
  unfold wakeOne at hs'
  split at hs'
  · -- a thread in the wait is notified
    rename_i hcount
    rw [h.waits] at hcount
    obtain ⟨v, -, hv⟩ := Finset.exists_ne_zero_of_sum_ne_zero hcount
    obtain ⟨w, mode, hw, hnotified⟩ := exists_notified_of_notifyOne hs' (t := v)
      (by simpa [Thread.waits] using hv)
    refine served_of_awake (isAwake_of_active (by rw [hnotified]; rfl)) fun hwx => ?_
    rw [hx w hwx.symm] at hw
    cases hw
  · -- nobody is in the wait, and only a thread in the reactor may sleep
    rename_i hcount
    rw [not_not, h.waits] at hcount
    rintro - ⟨v, hvx, hvw⟩
    have hwoken : s.Woken s' := by
      split at hs' <;> obtain rfl := Option.some.inj hs'
      exacts [(woken_wakeup s).1, Woken.refl s]
    have hnotwait : (s.threads v).phase.isWaiting = false := by
      have hle := le_sum Thread.waits s.threads v
      rw [show ∑ t, (s.threads t).waits = 0 from hcount] at hle
      exact Bool.toNat_eq_zero.mp (Nat.le_zero.mp hle)
    have hth : s'.threads v = s.threads v := hwoken.threads_eq hnotwait
    refine ⟨v, hvx, hvw, fun hblocked => ?_⟩
    rw [IsBlocked, hth] at hblocked
    rcases Phase.isBlocked_iff.mp hblocked with ⟨mode, hphase⟩ | ⟨⟨mode, hphase⟩, hzero⟩
    · rw [hphase] at hnotwait
      cases hnotwait
    · have hbranch : (s.threads v).phase.isInReactorBranch = true := by rw [hphase]; rfl
      rcases hothers with rfl | hothers
      · -- the reactor has asked for the interrupt
        rw [h.hasReactorService hbranch, h.interrupt v mode hphase] at hs'
        obtain rfl := Option.some.inj hs'
        exact absurd hzero (woken_wakeup s).2.ne'
      · rw [hothers v hvx] at hbranch
        cases hbranch

/-- After `WakeOne()` a worker is awake, also besides a thread in the reactor. -/
theorem Inv.covered_of_wakeOne (h : s.Inv) (hs' : s.wakeOne u = some s') : s'.Covered := by
  refine ⟨h.served_of_wakeOne hs' (fun _ hv => by cases hv) (.inl rfl),
    fun t mode pending ht _ => ?_⟩
  have hbranch : (s.threads t).phase.isInReactorBranch = true := by
    rw [← (woken_of_wakeOne hs').isInReactorBranch t, ht]
    rfl
  refine h.served_of_wakeOne hs' (fun v hv => ?_) (.inr fun v hv => ?_)
  · obtain rfl := Option.some.inj hv
    cases hphase : (s.threads t).phase <;> simp_all [Phase.isInReactorBranch, Phase.isWaiting]
  · by_contra hin
    rw [Bool.not_eq_false] at hin
    exact hv (congrArg some (h.eq_of_inReactorBranch hin hbranch))

/-! ## Runs of `Run()` without `Stop()` -/

/-- No `Stop()` takes effect, and the workers use `Run()`. -/
def RunWithoutStop : Action T → Prop
  | .enter _ mode => mode = .run
  | .stop _ | .finishStop _ => False
  | _ => True

instance : (a : Action T) → Decidable (RunWithoutStop a)
  | .enter _ mode => inferInstanceAs (Decidable (mode = .run))
  | .stop _ | .finishStop _ => inferInstanceAs (Decidable False)
  | .processNext _ _ | .wake _ | .spuriousWake _ | .reactorReturn _ _ _ | .reactorError _
  | .reactorRelock _ | .post _ _ | .dispatch _ _ | .push _ _ | .enqueuePostJobArrival _ _ _
  | .account _ | .relock _ | .onJobArrival _ | .onJobCompletion _ | .restart _
  | .useReactorService _ _ => inferInstanceAs (Decidable True)

/-- The executor has not been stopped and nobody is in `RunOne()`. -/
structure Plain (s : State T) : Prop where
  stop : s.stopRequested = false
  mode : ∀ t, (s.threads t).phase.mode ≠ some .runOne

omit [Fintype T] in
/-- A step that replaces one thread. -/
theorem Plain.update (h : s.Plain) (hthreads : s'.threads = Function.update s.threads t th)
    (hstop : s'.stopRequested = false) (hmode : th.phase.mode ≠ some .runOne) : s'.Plain := by
  refine ⟨hstop, fun v => ?_⟩
  rw [hthreads]
  by_cases hv : v = t
  · subst hv
    rw [Function.update_self]
    exact hmode
  · rw [Function.update_of_ne hv]
    exact h.mode v

omit [Fintype T] [DecidableEq T] in
/-- A wake-up. -/
theorem Plain.woken (h : s.Plain) (hwoken : s.Woken s') : s'.Plain := by
  refine ⟨hwoken.stopRequested.trans h.stop, fun v => ?_⟩
  · have hv := h.mode v
    rcases hwoken.phase v with heq | heq
    · rwa [heq]
    · rw [heq]
      cases hphase : (s.threads v).phase <;> simp_all [Phase.notify, Phase.mode]

/-- The executor stays so in a run of `Run()` without `Stop()`. -/
theorem Plain.of_transition {a : Action T} (h : s.Plain) (ha : s.Transition a s')
    (hC : RunWithoutStop a) : s'.Plain := by
  -- a step inside the entry point of the thread keeps the entry point
  have hmode {t : T} {ph : Phase} {mode : RunMode} (hphase : (s.threads t).phase = ph)
      (hph : ph.mode = some mode) : some mode ≠ some .runOne := hph ▸ hphase ▸ h.mode t
  cases ha with
  | finishStop | stop => exact hC.elim
  | enter _ =>
    obtain rfl : _ = RunMode.run := hC
    simp only [State.enter]
    split
    · exact h.update rfl h.stop (h.mode _)
    · exact h.update rfl h.stop (by simp [Phase.mode])
  | leave _ _ => exact h.update rfl h.stop (by simp [Phase.mode])
  | @takeNull t u mode rest s₁ hphase _ _ hwake =>
    have hs₁ : s₁.Plain :=
      Plain.woken (s := { s with operationQueue := rest }) ⟨h.stop, h.mode⟩
        (woken_of_wakeForPending hwake)
    exact hs₁.update (t := t) rfl hs₁.stop (hmode hphase rfl)
  | @takeJob t u mode op rest s₁ hphase _ _ hwake =>
    have hs₁ : s₁.Plain :=
      Plain.woken (s := { s with operationQueue := rest }) ⟨h.stop, h.mode⟩
        (woken_of_wakeForPending hwake)
    exact hs₁.update (t := t) rfl hs₁.stop (hmode hphase rfl)
  | wait hphase _ _ => exact h.update rfl h.stop (hmode hphase rfl)
  | wake hphase =>
    simp only [State.wake]
    split <;> exact h.update rfl h.stop (hmode hphase rfl)
  | spuriousWake hphase => exact h.update rfl h.stop (hmode hphase rfl)
  | reactorReturn hphase hreturn =>
    obtain ⟨-, hs'⟩ := Option.ite_none_left_eq_some.mp hreturn
    obtain rfl := Option.some.inj hs'
    exact h.update rfl h.stop (hmode hphase rfl)
  | reactorError _ => exact h.update rfl h.stop (by simp [Phase.mode])
  | reactorRelock hphase => exact h.update rfl h.stop (hmode hphase rfl)
  | postOutside _ | dispatchOutside _ => exact h.update rfl h.stop (by simp [Phase.mode])
  | postInside _ | enqueuePrivate _ => exact h.update rfl h.stop (h.mode _)
  | dispatchInside => exact h
  | @push t u op s' _ hpush =>
    have hset : (s.setPhase t .client).Plain := h.update rfl h.stop (by simp [Phase.mode])
    exact Plain.woken
      (s := { s.setPhase t .client with operationQueue := s.operationQueue ++ [.job op] })
      ⟨hset.stop, hset.mode⟩ (woken_of_wakeOne hpush)
  | @enqueue t u op s' henqueue =>
    exact Plain.woken (s := { s with operationQueue := s.operationQueue ++ [.job op] })
      ⟨h.stop, h.mode⟩ (woken_of_wakeOne henqueue)
  | @account t mode _ hphase =>
    obtain ⟨count, info, pending, heq⟩ := s.account_eq t mode
    rw [heq]
    exact h.update rfl h.stop (hmode hphase rfl)
  | @relock t mode hphase => cases mode <;> exact h.update rfl h.stop (by simp [Phase.mode])
  | onJobArrival => exact ⟨h.stop, h.mode⟩
  | restart => exact ⟨rfl, h.mode⟩
  | @onJobCompletion t =>
    obtain ⟨count, pending, heq⟩ := s.onJobCompletion_eq t
    rw [heq]
    exact h.update rfl h.stop (h.mode t)
  | useReactorService huse =>
    simp only [State.useReactorService, startReactorTask] at huse
    split at huse
    · obtain rfl := Option.some.inj huse
      exact h
    split at huse
    · obtain rfl := Option.some.inj huse
      exact ⟨h.stop, h.mode⟩
    · exact Plain.woken
        (s := { s with hasReactorService := true, operationQueue := s.operationQueue ++ [.null] })
        ⟨h.stop, h.mode⟩ (woken_of_wakeOne huse)

/-- A worker that got an error while it polled the reactor on an executor meant for one thread was
the only worker. -/
def ErrorLeavesNobody (s : State T) : Action T → Prop
  | .reactorError t =>
    s.singleThread = true → (s.threads t).phase.isPolling = true → ∀ v, v ≠ t → ¬ s.IsWorker v
  | _ => True

instance (s : State T) : (a : Action T) → Decidable (s.ErrorLeavesNobody a)
  | .reactorError _ => inferInstanceAs (Decidable (_ → _ → ∀ _, _ ≠ _ → ¬ _))
  | .enter _ _ | .processNext _ _ | .wake _ | .spuriousWake _ | .reactorReturn _ _ _
  | .reactorRelock _ | .post _ _ | .dispatch _ _ | .push _ _ | .enqueuePostJobArrival _ _ _
  | .account _ | .relock _ | .onJobArrival _ | .onJobCompletion _ | .finishStop _ | .stop _
  | .restart _ | .useReactorService _ _ => inferInstanceAs (Decidable True)

omit [Fintype T] in
/-- A step that leaves the queue and moves at most one thread, from outside to outside. -/
theorem Covered.frame (h : s.Covered) (hthreads : s'.threads = Function.update s.threads t th)
    (hqueue : s'.operationQueue = s.operationQueue)
    (hsingle : s'.singleThread = s.singleThread) (hcounter : s'.unblockCounter = s.unblockCounter)
    (hth : th.phase = (s.threads t).phase ∨
      th.phase.isWorker = false ∧ (s.threads t).phase.isWorker = false) : s'.Covered := by
  have hworker (v : T) (hv : s'.IsWorker v ∨ s.IsWorker v) :
      (s'.threads v).phase = (s.threads v).phase := by
    rw [IsWorker, IsWorker, hthreads] at hv
    rw [hthreads]
    by_cases hvt : v = t
    · subst hvt
      rw [Function.update_self] at hv ⊢
      rcases hth with hth | ⟨hnew, hold⟩
      · exact hth
      · simp [hnew, hold] at hv
    · rw [Function.update_of_ne hvt]
  have hserved {x : Option T} (hx : s.Served x) : s'.Served x := by
    refine hx.frame hqueue (fun v _ hv => ?_) (fun v _ hv => ?_)
    · rw [IsWorker, ← hworker v (.inl hv)]
      exact hv
    · rw [IsAwake, IsWorker, IsBlocked, hworker v (.inr hv.1), hcounter]
      exact hv
  refine ⟨hserved h.served, fun v mode pending hv hor => ?_⟩
  have hvw : s'.IsWorker v := by rw [IsWorker, hv]; rfl
  exact hserved (h.besides v mode pending ((hworker v (.inl hvw)).symm.trans hv) (hsingle ▸ hor))

omit [DecidableEq T] in
/-- The invariant does not depend on the jobs in the queue. -/
theorem Inv.setQueue (h : s.Inv) {queue : List ExecutorOperation}
    (hqueue : queue.count .null ≤ s.operationQueue.count .null) :
    { s with operationQueue := queue }.Inv := by
  refine ⟨⟨h.waits, h.interrupt⟩, ?_⟩
  have hturns := h.turns
  simp only [State.reactorTurns] at hturns ⊢
  omega

/-- Posting a job leaves a worker awake. -/
theorem Inv.covered_of_enqueue {op : OpId} (h : s.Inv) (hs' : s.enqueue (.job op) u = some s') :
    s'.Covered :=
  (h.setQueue (by simp)).covered_of_wakeOne hs'

/-- The worker that takes the marker polls the reactor while something is queued. On an executor
meant for several threads it has woken another worker. -/
theorem Inv.covered_takeNull (hinv : s.Inv) {mode : RunMode} {rest : List ExecutorOperation}
    {s₁ : State T} (hphase : (s.threads t).phase = .processing mode)
    (hqueue : s.operationQueue = .null :: rest)
    (hwake : { s with operationQueue := rest }.wakeForPending u = some s₁) :
    ({ s₁ with reactorNeedsInterrupt := rest.isEmpty }.setPhase t
      (.inReactor mode (!rest.isEmpty))).Covered := by
  have hwoken := woken_of_wakeForPending hwake
  have hrest : s₁.operationQueue = rest := hwoken.operationQueue
  rcases rest.eq_nil_or_concat with rfl | hne
  · exact Covered.of_nil hrest
  have hne : rest ≠ [] := by
    obtain ⟨l, b, rfl⟩ := hne
    simp
  have hpending : (!rest.isEmpty) = true := by simpa using hne
  have hmarker (v : T) : (s₁.threads v).phase.isInReactorBranch = false := by
    rw [hwoken.isInReactorBranch v]
    exact hinv.not_inReactorBranch_of_mem (by rw [hqueue]; exact List.mem_cons_self) v
  rw [hpending]
  refine ⟨served_of_awake (t := t) ?_ (Option.some_ne_none t), fun r mode' pending hr hor => ?_⟩
  · simp [IsAwake, IsWorker, IsBlocked, setPhase, setThread, Phase.isWorker, Phase.isBlocked]
  by_cases hrt : r = t
  · subst hrt
    rw [setPhase_phase_self] at hr
    have hmulti : s.singleThread = false := by
      rcases hor with hsingle | hpoll
      · obtain ⟨c, ths, -, -, rfl⟩ := hwoken
        exact hsingle
      · rw [← (Phase.inReactor.inj hr).2] at hpoll
        cases hpoll
    rw [wakeForPending, if_pos ⟨hmulti, hne⟩] at hwake
    have hrest : { s with operationQueue := rest }.Inv := hinv.setQueue (by rw [hqueue]; simp)
    have hserved : s₁.Served (some r) := by
      refine hrest.served_of_wakeOne hwake (fun v hv => ?_) (.inr fun v _ => ?_)
      · obtain rfl := Option.some.inj hv
        rw [hphase]
        rfl
      · rw [← hwoken.isInReactorBranch v]
        exact hmarker v
    -- the other threads are as `WakeOne()` left them
    refine hserved.frame rfl (fun v hv hvw => ?_) (fun v hv hva => ?_)
    · rw [IsWorker, setPhase_threads_of_ne _ fun hvr => hv (congrArg some hvr)] at hvw
      exact hvw
    · rw [IsAwake, IsWorker, IsBlocked, setPhase_threads_of_ne _ fun hvr => hv (congrArg some hvr)]
      exact hva
  · rw [setPhase_threads_of_ne _ hrt] at hr
    have hnot := hmarker r
    rw [hr] at hnot
    cases hnot

/-- The worker that leaves with an error of the reactor has another one awake besides it, or is
alone, or leaves the queue empty. -/
theorem Covered.reactorError (h : s.Covered) (hinv : s.Inv) {mode : RunMode} {pending : Bool}
    (hphase : (s.threads t).phase = .inReactor mode pending)
    (hE : s.ErrorLeavesNobody (.reactorError t)) : (s.reactorError t).Covered := by
  have hothers {v : T} (hv : v ≠ t) : (s.reactorError t).threads v = s.threads v :=
    s.setThread_threads_of_ne hv _
  have hclient {v : T} (hv : (s.reactorError t).IsWorker v) : v ≠ t := by
    rintro rfl
    rw [IsWorker, State.reactorError, setThread_threads_self] at hv
    cases hv
  refine ⟨?_, fun r mode' pending' hr _ => ?_⟩
  · rintro hne ⟨v, -, hvw⟩
    have hvt := hclient hvw
    rw [IsWorker, hothers hvt] at hvw
    have hor : s.singleThread = false ∨ pending = false := by
      by_contra hnot
      rw [not_or, Bool.not_eq_false, Bool.not_eq_false] at hnot
      exact hE hnot.1 (by rw [hphase]; exact hnot.2) v hvt hvw
    obtain ⟨w, hwt, hw⟩ := h.besides t mode pending hphase hor hne
      ⟨v, fun heq => hvt (Option.some.inj heq), hvw⟩
    refine ⟨w, Option.some_ne_none w, ?_⟩
    rw [IsAwake, IsWorker, IsBlocked, hothers fun heq => hwt (congrArg some heq)]
    exact hw
  · -- two threads would be in the branch
    have hrt : r ≠ t := hclient (by rw [IsWorker, hr]; rfl)
    rw [hothers hrt] at hr
    exact absurd (hinv.eq_of_inReactorBranch (by rw [hr]; rfl) (by rw [hphase]; rfl)) hrt

omit [Fintype T] in
/-- A worker that enters `Run()` is active, or it goes on to stop the executor. -/
theorem Covered.enter (h : s.Covered) (t : T) (mode : RunMode) : (s.enter t mode).Covered := by
  simp only [State.enter]
  split
  · exact h.frame rfl rfl rfl rfl (.inl rfl)
  · exact Covered.of_active (t := t) (by simp [setThread, Phase.isActive])

omit [Fintype T] in
/-- A worker that wakes is active, or the queue is empty. -/
theorem covered_wake (s : State T) (t : T) (mode : RunMode) : (s.wake t mode).Covered := by
  simp only [State.wake]
  split
  · rename_i hqueue
    exact Covered.of_nil hqueue
  · exact Covered.of_active (t := t) (by simp [setPhase, setThread, Phase.isActive])

omit [Fintype T] in
/-- A worker whose operation has returned is active. -/
theorem covered_account (s : State T) (t : T) (mode : RunMode) : (s.account t mode).Covered := by
  obtain ⟨count, info, pending, heq⟩ := s.account_eq t mode
  rw [heq]
  exact Covered.of_active (t := t) (by simp [setThread, Phase.isActive])

omit [Fintype T] in
/-- A worker in `Run()` goes on with the next operation. -/
theorem covered_relock_run (s : State T) (t : T) : (s.relock t .run).Covered :=
  Covered.of_active (t := t) (by simp [State.relock, setThread, Phase.isActive])

omit [Fintype T] in
/-- `OnJobCompletion()` leaves the queue and the workers. -/
theorem Covered.onJobCompletion (h : s.Covered) (t : T) : (s.onJobCompletion t).Covered := by
  obtain ⟨count, pending, heq⟩ := s.onJobCompletion_eq t
  rw [heq]
  exact h.frame rfl rfl rfl rfl (.inl rfl)

/-- A job pushed by a thread outside leaves a worker awake. -/
theorem Inv.covered_push (hinv : s.Inv) {op : OpId} (hphase : (s.threads t).phase = .posting op)
    (hpush : (s.setPhase t .client).enqueue (.job op) u = some s') : s'.Covered := by
  have hturns : (s.setPhase t .client).reactorTurns = s.reactorTurns :=
    reactorTurns_congr rfl rfl (by rw [hphase]; rfl)
  have hset : (s.setPhase t .client).Inv :=
    ⟨hinv.toSleepers.congr rfl rfl rfl (by rw [hphase]; rfl) fun _ => Phase.noConfusion,
      hturns.trans_le hinv.turns⟩
  exact hset.covered_of_enqueue hpush

/-- The marker that the first `UseReactorService()` pushes leaves a worker awake. -/
theorem Covered.useReactorService (h : s.Covered) (hinv : s.Inv) (hstop : s.stopRequested = false)
    (huse : s.useReactorService u = some s') : s'.Covered := by
  simp only [State.useReactorService, startReactorTask] at huse
  split at huse
  · obtain rfl := Option.some.inj huse
    exact h
  rename_i hservice
  rw [if_neg (by rw [hstop]; decide)] at huse
  -- before the first use there was no marker
  refine Inv.covered_of_wakeOne (s := { s with
    hasReactorService := true
    operationQueue := s.operationQueue ++ [.null] }) ⟨⟨hinv.waits, hinv.interrupt⟩, ?_⟩ huse
  have hturns := hinv.turns
  rw [Bool.not_eq_true] at hservice
  simp only [State.reactorTurns, hservice, Bool.toNat_false] at hturns
  simp only [State.reactorTurns, List.count_append, List.count_singleton_self, Bool.toNat_true]
  omega

/-- While something is queued a worker is awake, also after the next step. -/
theorem Covered.of_transition {a : Action T} (hinv : s.Inv) (hplain : s.Plain) (h : s.Covered)
    (ha : s.Transition a s') (hC : RunWithoutStop a) (hE : s.ErrorLeavesNobody a) : s'.Covered := by
  -- nobody is in `RunOne()`
  have hmode {t : T} {ph : Phase} (hphase : (s.threads t).phase = ph)
      (hph : ph.mode = some .runOne) : False := hplain.mode t (hphase ▸ hph)
  cases ha with
  | finishStop | stop => exact hC.elim
  | enter _ => exact h.enter _ _
  | leave hphase hleave =>
    rcases hleave with rfl | hstop
    · exact (hmode hphase rfl).elim
    · rw [hplain.stop] at hstop
      cases hstop
  | takeNull hphase _ hqueue hwake => exact hinv.covered_takeNull hphase hqueue hwake
  | @takeJob t =>
    exact Covered.of_active (t := t) (by simp [setPhase, setThread, Phase.isActive])
  | wait _ _ hqueue => exact Covered.of_nil hqueue
  | wake _ => exact covered_wake _ _ _
  | @spuriousWake t =>
    exact Covered.of_active (t := t) (by simp [setPhase, setThread, Phase.isActive])
  | @reactorReturn t _ _ _ _ _ _ hreturn =>
    obtain ⟨-, hs'⟩ := Option.ite_none_left_eq_some.mp hreturn
    obtain rfl := Option.some.inj hs'
    exact Covered.of_active (t := t) (by simp [setThread, Phase.isActive])
  | reactorError hphase => exact h.reactorError hinv hphase hE
  | @reactorRelock t =>
    exact Covered.of_active (t := t) (by simp [State.reactorRelock, setThread, Phase.isActive])
  | postOutside hphase | dispatchOutside hphase =>
    exact h.frame rfl rfl rfl rfl (.inr ⟨rfl, by rw [hphase]; rfl⟩)
  | postInside _ | enqueuePrivate _ => exact h.frame rfl rfl rfl rfl (.inl rfl)
  | dispatchInside => exact h
  | push hphase hpush => exact hinv.covered_push hphase hpush
  | enqueue henqueue => exact hinv.covered_of_enqueue henqueue
  | account _ => exact covered_account _ _ _
  | @relock t mode hphase =>
    cases mode with
    | run => exact covered_relock_run s t
    | runOne => exact (hmode hphase rfl).elim
  | @onJobArrival t | @restart t =>
    exact h.frame (t := t) (Function.update_eq_self _ _).symm rfl rfl rfl (.inl rfl)
  | onJobCompletion => exact h.onJobCompletion _
  | useReactorService huse => exact h.useReactorService hinv hplain.stop huse

/-- The steps of a run of `Run()` without `Stop()` in which no worker leaves jobs behind. -/
def WakesWorkers (s : State T) (a : Action T) : Prop := RunWithoutStop a ∧ s.ErrorLeavesNobody a

instance (s : State T) (a : Action T) : Decidable (s.WakesWorkers a) :=
  inferInstanceAs (Decidable (_ ∧ _))

/-- In such a run something in the queue keeps a worker awake. -/
theorem Covered.of_reachable (hs : (machine T).ReachableIn WakesWorkers s) : s.Covered := by
  have hinv : s.Inv ∧ s.Plain ∧ s.Covered := by
    refine hs.invariant (I := fun s => s.Inv ∧ s.Plain ∧ s.Covered) (fun s hinit => ?_)
      fun s a s' h hC hs' => ?_
    · rw [show s = { singleThread := s.singleThread } from hinit]
      exact ⟨Inv.init _, ⟨rfl, fun _ => (Option.some_ne_none _).symm⟩, Covered.of_nil rfl⟩
    · have ha := transition_of_step hs'
      exact ⟨h.1.step hs', h.2.1.of_transition ha hC.1,
        h.2.2.of_transition h.1 h.2.1 ha hC.1 hC.2⟩
  exact hinv.2.2

/-- A lost wake-up: the queue holds a job, there are workers, and all of them sleep. -/
def LostWakeUp (s : State T) : Prop :=
  (∃ op, .job op ∈ s.operationQueue) ∧ (∃ t, s.IsWorker t) ∧ ∀ t, s.IsWorker t → s.IsBlocked t

omit [Fintype T] [DecidableEq T] in
/-- A worker that is awake while something is queued is no lost wake-up. -/
theorem Covered.not_lostWakeUp (h : s.Covered) : ¬ s.LostWakeUp := by
  rintro ⟨⟨op, hop⟩, ⟨t, ht⟩, hblocked⟩
  obtain ⟨v, -, hv, hawake⟩ :=
    h.served (List.ne_nil_of_mem hop) ⟨t, Option.some_ne_none t, ht⟩
  exact hawake (hblocked v hv)

/-- The reactor's `Run()` does not return an error. `epoll_wait()` is tried again after a signal,
and the reactor calls it with its own descriptor and buffer. -/
def ReactorSucceeds : Action T → Prop
  | .reactorError _ => False
  | _ => True

instance : (a : Action T) → Decidable (ReactorSucceeds a)
  | .reactorError _ => inferInstanceAs (Decidable False)
  | .enter _ _ | .processNext _ _ | .wake _ | .spuriousWake _ | .reactorReturn _ _ _
  | .reactorRelock _ | .post _ _ | .dispatch _ _ | .push _ _ | .enqueuePostJobArrival _ _ _
  | .account _ | .relock _ | .onJobArrival _ | .onJobCompletion _ | .finishStop _ | .stop _
  | .restart _ | .useReactorService _ _ => inferInstanceAs (Decidable True)

/-- The steps of a run of `Run()` without `Stop()` in which the reactor's `Run()` succeeds. -/
def RunsWithoutError (_ : State T) (a : Action T) : Prop := RunWithoutStop a ∧ ReactorSucceeds a

instance (s : State T) (a : Action T) : Decidable (s.RunsWithoutError a) :=
  inferInstanceAs (Decidable (_ ∧ _))

omit [Fintype T] [DecidableEq T] in
/-- No worker leaves jobs behind in such a run. -/
theorem RunsWithoutError.wakesWorkers {a : Action T} (h : s.RunsWithoutError a) :
    s.WakesWorkers a := by
  refine ⟨h.1, ?_⟩
  cases a with
  | reactorError _ => exact h.2.elim
  | _ => trivial

end State

open State in
/-- No lost wake-up. Take any run with any number of workers in `Run()` and of threads that post, in
which no `Stop()` takes effect. If no call of the reactor's `Run()` returns an error, then no
wake-up is lost. -/
theorem no_lost_wake_up {T : Type} [Fintype T] [DecidableEq T] {s : State T}
    (hs : (machine T).ReachableIn RunsWithoutError s) : ¬ s.LostWakeUp :=
  (Covered.of_reachable (hs.mono fun _ _ => RunsWithoutError.wakesWorkers)).not_lostWakeUp

open State in
/-- One worker is in the wait and one sleeps in the reactor. A job that a third thread posts reaches
the one in the wait. -/
theorem no_lost_wake_up_third_thread :
    ∃ s : State (Fin 3), (machine (Fin 3)).ReachableIn RunsWithoutError s ∧
      s.operationQueue = [.job 9] ∧ (s.threads 0).phase = .waiting .run true ∧
      s.IsBlocked 1 ∧ ¬ s.LostWakeUp := by
  have hs := ToMathlib.Machine.reachableIn_get_run (M := machine (Fin 3)) (C := RunsWithoutError)
    (s := { singleThread := false })
    (l := [.useReactorService 0 0, .onJobArrival 0, .enter 0 .run, .enter 1 .run, .processNext 1 0,
      .processNext 0 0, .post 2 9, .push 2 0]) rfl (by decide)
  exact ⟨_, hs, by decide, by decide, by decide, no_lost_wake_up hs⟩

end Asrt.WorkerPool
