import Asrt.Executor.WorkerPool
import Asrt.ToMathlib.UpdateSum

/-!
# One reactor marker

The reactor's turn is a null operation in `operation_queue_` or a thread in the branch of
`ProcessNextOperation()` that took it. `reactorTurns_of_transition` says everything about it: a step
keeps the number of turns, except that the first `UseReactorService()` makes one unless the executor
is stopped, and that an error of the reactor's `Run()` destroys one.

`one_reactor_marker` is the count for the runs that avoid these two: `StartReactorTask()` skips the
push on a stopped executor, and nothing makes up for it after `Restart()`; the branch returns an
error without pushing the null operation again. `one_reactor_marker_lost` has a run with each.
-/

namespace Asrt.WorkerPool

open Executor (OpId RunMode ThreadInfo fetchAdd fetchSub)
open ToMathlib (sum_update_add le_sum add_le_sum)

/-- One if the thread holds the reactor's turn. -/
def Thread.reactorTurns (th : Thread) : ℕ := th.phase.isInReactorBranch.toNat

/-- One if the thread is in `cv_.wait()`. -/
def Thread.waits (th : Thread) : ℕ := th.phase.isWaiting.toNat

@[simp] theorem Thread.reactorTurns_notify (th : Thread) :
    th.notify.reactorTurns = th.reactorTurns := by
  simp [Thread.reactorTurns, Thread.notify]

@[simp] theorem Thread.waits_notify (th : Thread) : th.notify.waits = th.waits := by
  simp [Thread.waits, Thread.notify]

namespace State

variable {T : Type} [Fintype T] [DecidableEq T] {s s' : State T} {t u : T}

/-- The reactor's turns: null operations in the queue and threads in the branch that took one. -/
def reactorTurns (s : State T) : ℕ :=
  s.operationQueue.count .null + ∑ t, (s.threads t).reactorTurns

/-- The threads in `cv_.wait()`. -/
def waits (s : State T) : ℕ := ∑ t, (s.threads t).waits

/-- A step that replaces the queue and one thread changes the turns by what these two hold. -/
theorem reactorTurns_eq {th : Thread} (hthreads : s'.threads = Function.update s.threads t th) :
    s'.reactorTurns + (s.operationQueue.count .null + (s.threads t).reactorTurns) =
      s.reactorTurns + (s'.operationQueue.count .null + th.reactorTurns) := by
  have hsum := sum_update_add Thread.reactorTurns s.threads t th
  simp only [reactorTurns, hthreads]
  omega

/-- A step that replaces one thread changes the waits by the one of this thread. -/
theorem waits_eq {th : Thread} (hthreads : s'.threads = Function.update s.threads t th) :
    s'.waits + (s.threads t).waits = s.waits + th.waits := by
  simp only [waits, hthreads]
  exact sum_update_add Thread.waits s.threads t th

/-- A step that leaves the queue and keeps what one thread holds keeps the turns. -/
theorem reactorTurns_congr {th : Thread} (hthreads : s'.threads = Function.update s.threads t th)
    (hqueue : s'.operationQueue.count .null = s.operationQueue.count .null)
    (hth : th.phase.isInReactorBranch = (s.threads t).phase.isInReactorBranch) :
    s'.reactorTurns = s.reactorTurns := by
  have heq := reactorTurns_eq hthreads
  simp only [Thread.reactorTurns, hth] at heq
  omega

/-! ## What a wake-up changes -/

/-- The second state differs from the first by notifications and writes to the eventfd only. -/
def Woken (s s' : State T) : Prop :=
  ∃ (counter : ℕ) (threads : T → Thread), s.unblockCounter ≤ counter ∧
    (∀ v, threads v = s.threads v ∨ threads v = (s.threads v).notify) ∧
    s' = { s with unblockCounter := counter, threads := threads }

omit [Fintype T] [DecidableEq T] in
/-- No wake-up at all. -/
theorem Woken.refl (s : State T) : s.Woken s := ⟨_, _, le_rfl, fun _ => .inl rfl, rfl⟩

omit [Fintype T] [DecidableEq T] in
/-- A write to the eventfd leaves it positive and everything else alone. -/
theorem woken_wakeup (s : State T) : s.Woken s.wakeup ∧ 0 < s.wakeup.unblockCounter := by
  refine ⟨⟨s.wakeup.unblockCounter, s.threads, ?_, fun _ => .inl rfl, rfl⟩, ?_⟩ <;>
    simp only [wakeup] <;> split <;> omega

/-- `notify_one()` is a wake-up. -/
theorem woken_of_notifyOne (hs' : s.notifyOne u = some s') : s.Woken s' := by
  unfold notifyOne at hs'
  split at hs'
  · obtain rfl := Option.some.inj hs'
    refine ⟨_, _, le_rfl, fun v => ?_, rfl⟩
    by_cases hv : v = u
    · subst hv
      exact .inr (Function.update_self _ _ _)
    · exact .inl (Function.update_of_ne hv _ _)
  split at hs'
  · cases hs'
  · obtain rfl := Option.some.inj hs'
    exact Woken.refl s

/-- `WakeOne()` is a wake-up. -/
theorem woken_of_wakeOne (hs' : s.wakeOne u = some s') : s.Woken s' := by
  unfold wakeOne at hs'
  split at hs'
  · exact woken_of_notifyOne hs'
  split at hs' <;> obtain rfl := Option.some.inj hs'
  · exact (woken_wakeup s).1
  · exact Woken.refl s

/-- So is the wake-up for the rest of the queue. -/
theorem woken_of_wakeForPending (hs' : s.wakeForPending u = some s') : s.Woken s' := by
  unfold wakeForPending at hs'
  split at hs'
  · exact woken_of_wakeOne hs'
  · obtain rfl := Option.some.inj hs'
    exact Woken.refl s

omit [Fintype T] [DecidableEq T] in
/-- `WakeAll()` is a wake-up, and it notifies every thread. -/
theorem woken_wakeAll (s : State T) :
    s.Woken s.wakeAll ∧ ∀ v, s.wakeAll.threads v = (s.threads v).notify := by
  simp only [wakeAll]
  split
  · refine ⟨⟨s.wakeup.unblockCounter, _, ?_, fun _ => .inr rfl, rfl⟩, fun _ => rfl⟩
    obtain ⟨c, ths, hc, -, heq⟩ := (woken_wakeup s).1
    rw [heq]
    exact hc
  · exact ⟨⟨_, _, le_rfl, fun _ => .inr rfl, rfl⟩, fun _ => rfl⟩

omit [DecidableEq T] in
/-- A wake-up moves no turn. -/
theorem Woken.reactorTurns (h : s.Woken s') : s'.reactorTurns = s.reactorTurns := by
  obtain ⟨c, ths, -, hths, rfl⟩ := h
  have hsum : ∑ v, (ths v).reactorTurns = ∑ v, (s.threads v).reactorTurns := by
    refine Finset.sum_congr rfl fun v _ => ?_
    rcases hths v with hv | hv <;> simp [hv]
  simp only [State.reactorTurns, hsum]

omit [DecidableEq T] in
/-- A wake-up does not end a wait by itself. -/
theorem Woken.waits (h : s.Woken s') : s'.waits = s.waits := by
  obtain ⟨c, ths, -, hths, rfl⟩ := h
  refine Finset.sum_congr rfl fun v _ => ?_
  rcases hths v with hv | hv <;> simp [hv]

omit [Fintype T] [DecidableEq T] in
/-- A wake-up does to a thread what a notification does, or nothing. -/
theorem Woken.phase (h : s.Woken s') (v : T) :
    (s'.threads v).phase = (s.threads v).phase ∨
      (s'.threads v).phase = (s.threads v).phase.notify := by
  obtain ⟨c, ths, -, hths, rfl⟩ := h
  exact (hths v).imp (congrArg Thread.phase) (congrArg Thread.phase)

omit [Fintype T] [DecidableEq T] in
/-- A wake-up moves no thread into the reactor branch or out of it. -/
theorem Woken.isInReactorBranch (h : s.Woken s') (v : T) :
    (s'.threads v).phase.isInReactorBranch = (s.threads v).phase.isInReactorBranch := by
  rcases h.phase v with hv | hv <;> simp [hv]

omit [Fintype T] [DecidableEq T] in
/-- A wake-up makes no worker. -/
theorem Woken.isWorker (h : s.Woken s') (v : T) :
    (s'.threads v).phase.isWorker = (s.threads v).phase.isWorker := by
  rcases h.phase v with hv | hv <;> simp [hv]

omit [Fintype T] [DecidableEq T] in
/-- A wake-up leaves a thread that is not in the wait alone. -/
theorem Woken.threads_eq (h : s.Woken s') (hwait : (s.threads t).phase.isWaiting = false) :
    s'.threads t = s.threads t := by
  obtain ⟨c, ths, -, hths, rfl⟩ := h
  rcases hths t with ht | ht
  · exact ht
  · show ths t = s.threads t
    rw [ht, Thread.notify, Phase.notify_of_not_waiting hwait]

/-! ## The steps -/

/-- The turns a step makes: the first `UseReactorService()` makes one, unless the executor is
stopped. -/
def newTurns (s : State T) : Action T → ℕ
  | .useReactorService _ _ => (!s.hasReactorService && !s.stopRequested).toNat
  | _ => 0

/-- The turns a step destroys: an error of the reactor's `Run()` destroys one. -/
def lostTurns : Action T → ℕ
  | .reactorError _ => 1
  | _ => 0

/-- A post pushes an operation and wakes. -/
theorem reactorTurns_of_enqueue {op : ExecutorOperation} (hs' : s.enqueue op u = some s') :
    s'.reactorTurns = s.reactorTurns + [op].count .null := by
  rw [(woken_of_wakeOne hs').reactorTurns]
  simp only [reactorTurns, List.count_append]
  omega

omit [DecidableEq T] in
/-- `Stop()` moves no turn. -/
theorem reactorTurns_stop (s : State T) : s.stop.reactorTurns = s.reactorTurns :=
  (woken_wakeAll { s with stopRequested := true }).1.reactorTurns

/-- The worker that takes the marker takes the turn from the queue. -/
theorem reactorTurns_takeNull {rest : List ExecutorOperation} {mode : RunMode} {b : Bool}
    (hphase : (s.threads t).phase = .processing mode) (hqueue : s.operationQueue = .null :: rest)
    (hwake : { s with operationQueue := rest }.wakeForPending u = some s') :
    ({ s' with reactorNeedsInterrupt := b }.setPhase t (.inReactor mode (!b))).reactorTurns =
      s.reactorTurns := by
  have hwoken := woken_of_wakeForPending hwake
  have hturns := hwoken.reactorTurns
  have hth : s'.threads t = s.threads t := hwoken.threads_eq (by rw [hphase]; rfl)
  have hset := reactorTurns_eq (show ({ s' with reactorNeedsInterrupt := b }.setPhase t
    (.inReactor mode (!b))).threads = Function.update s'.threads t _ from rfl)
  have hpop : s.reactorTurns = { s with operationQueue := rest }.reactorTurns + 1 := by
    simp only [reactorTurns, hqueue, List.count_cons_self]
    omega
  simp only [hth, hphase, Thread.reactorTurns, Phase.isInReactorBranch, setPhase, setThread,
    Bool.toNat_false, Bool.toNat_true] at hset
  simp only [setPhase, setThread, hth]
  omega

/-- The worker that takes a job leaves the turn where it is. -/
theorem reactorTurns_takeJob {rest : List ExecutorOperation} {mode : RunMode} {op : OpId}
    (hphase : (s.threads t).phase = .processing mode) (hqueue : s.operationQueue = .job op :: rest)
    (hwake : { s with operationQueue := rest }.wakeForPending u = some s') :
    (s'.setPhase t (.running mode op)).reactorTurns = s.reactorTurns := by
  have hwoken := woken_of_wakeForPending hwake
  have hth : s'.threads t = s.threads t := hwoken.threads_eq (by rw [hphase]; rfl)
  have hpop : s.reactorTurns = { s with operationQueue := rest }.reactorTurns := by
    simp [reactorTurns, hqueue]
  calc (s'.setPhase t (.running mode op)).reactorTurns = s'.reactorTurns :=
        reactorTurns_congr rfl rfl (by rw [hth, hphase]; rfl)
    _ = { s with operationQueue := rest }.reactorTurns := hwoken.reactorTurns
    _ = s.reactorTurns := hpop.symm

/-- The worker that gets an error leaves with the turn it holds. -/
theorem reactorTurns_reactorError {mode : RunMode} {pending : Bool}
    (hphase : (s.threads t).phase = .inReactor mode pending) :
    (s.reactorError t).reactorTurns + 1 = s.reactorTurns := by
  have hset := reactorTurns_eq
    (show (s.reactorError t).threads = Function.update s.threads t _ from rfl)
  simp only [hphase, Thread.reactorTurns, Phase.isInReactorBranch, Bool.toNat_false,
    Bool.toNat_true] at hset
  have hqueue : (s.reactorError t).operationQueue = s.operationQueue := rfl
  rw [hqueue] at hset
  omega

/-- The worker that comes back from the reactor puts its turn at the back of the queue. -/
theorem reactorTurns_reactorRelock {mode : RunMode}
    (hphase : (s.threads t).phase = .reactorReturned mode) :
    (s.reactorRelock t mode).reactorTurns = s.reactorTurns := by
  have hset := reactorTurns_eq
    (show (s.reactorRelock t mode).threads = Function.update s.threads t _ from rfl)
  have hqueue : (s.reactorRelock t mode).operationQueue.count .null =
      s.operationQueue.count .null + 1 := by
    simp [reactorRelock, setThread, List.count_eq_zero]
  simp only [hqueue, hphase, Thread.reactorTurns, Phase.isInReactorBranch, Bool.toNat_false,
    Bool.toNat_true] at hset
  omega

/-- The first `UseReactorService()` makes a turn, unless the executor is stopped. -/
theorem reactorTurns_useReactorService (huse : s.useReactorService u = some s') :
    s'.reactorTurns = s.reactorTurns + (!s.hasReactorService && !s.stopRequested).toNat := by
  simp only [useReactorService, startReactorTask] at huse
  split at huse
  · rename_i hservice
    obtain rfl := Option.some.inj huse
    simp [hservice]
  split at huse
  · rename_i hservice hstop
    obtain rfl := Option.some.inj huse
    simp only [show s.stopRequested = true from hstop]
    simp [reactorTurns]
  · rename_i hservice hstop
    have hturns := reactorTurns_of_enqueue huse
    rw [Bool.not_eq_true] at hservice hstop
    simp only [show s.stopRequested = false from hstop, hservice]
    exact hturns

/-- A step keeps the number of turns, but for the one it makes or destroys. -/
theorem reactorTurns_of_transition {a : Action T} (h : s.Transition a s') :
    s'.reactorTurns + lostTurns a = s.reactorTurns + s.newTurns a := by
  cases h with
  | @finishStop t =>
    calc (s.finishStop t).reactorTurns = s.stop.reactorTurns := reactorTurns_congr rfl rfl rfl
      _ = s.reactorTurns := reactorTurns_stop s
  | enter hphase =>
    simp only [enter]
    split
    · exact reactorTurns_congr rfl rfl rfl
    · exact reactorTurns_congr rfl rfl (by rw [hphase]; rfl)
  | leave hphase _ => exact reactorTurns_congr rfl rfl (by rw [hphase]; rfl)
  | takeNull hphase _ hqueue hwake => exact reactorTurns_takeNull hphase hqueue hwake
  | takeJob hphase _ hqueue hwake => exact reactorTurns_takeJob hphase hqueue hwake
  | wait hphase _ _ => exact reactorTurns_congr rfl rfl (by rw [hphase]; rfl)
  | wake hphase =>
    simp only [wake]
    split <;> exact reactorTurns_congr rfl rfl (by rw [hphase]; rfl)
  | spuriousWake hphase => exact reactorTurns_congr rfl rfl (by rw [hphase]; rfl)
  | reactorReturn hphase hreturn =>
    obtain ⟨-, hs'⟩ := Option.ite_none_left_eq_some.mp hreturn
    obtain rfl := Option.some.inj hs'
    exact reactorTurns_congr rfl rfl (by rw [hphase]; rfl)
  | reactorError hphase => exact reactorTurns_reactorError hphase
  | reactorRelock hphase => exact reactorTurns_reactorRelock hphase
  | postOutside hphase | dispatchOutside hphase =>
    exact reactorTurns_congr rfl rfl (by rw [hphase]; rfl)
  | postInside _ | enqueuePrivate _ => exact reactorTurns_congr rfl rfl rfl
  | dispatchInside => rfl
  | push hphase hpush =>
    rw [reactorTurns_of_enqueue hpush]
    exact reactorTurns_congr rfl rfl (by rw [hphase]; rfl)
  | enqueue henqueue => exact reactorTurns_of_enqueue henqueue
  | @account t mode _ hphase =>
    obtain ⟨count, info, pending, heq⟩ := s.account_eq t mode
    rw [heq]
    exact reactorTurns_congr rfl rfl (by rw [hphase]; rfl)
  | @relock t mode hphase =>
    refine reactorTurns_congr rfl ?_ (by rw [hphase]; cases mode <;> rfl)
    simp [relock, setThread, List.count_eq_zero]
  | onJobArrival => rfl
  | @onJobCompletion t =>
    obtain ⟨count, pending, heq⟩ := s.onJobCompletion_eq t
    rw [heq]
    exact reactorTurns_congr rfl rfl rfl
  | stop => exact reactorTurns_stop s
  | restart => rfl
  | useReactorService huse => exact reactorTurns_useReactorService huse

omit [Fintype T] [DecidableEq T] in
/-- A wake-up makes no reactor. -/
theorem Woken.hasReactorService (h : s.Woken s') : s'.hasReactorService = s.hasReactorService := by
  obtain ⟨c, ths, -, -, rfl⟩ := h
  rfl

omit [Fintype T] [DecidableEq T] in
/-- A wake-up stops nothing. -/
theorem Woken.stopRequested (h : s.Woken s') : s'.stopRequested = s.stopRequested := by
  obtain ⟨c, ths, -, -, rfl⟩ := h
  rfl

omit [Fintype T] [DecidableEq T] in
/-- A wake-up queues nothing. -/
theorem Woken.operationQueue (h : s.Woken s') : s'.operationQueue = s.operationQueue := by
  obtain ⟨c, ths, -, -, rfl⟩ := h
  rfl

/-- The step is a call of `UseReactorService()`. -/
def usesReactor : Action T → Bool
  | .useReactorService _ _ => true
  | _ => false

/-- Only `UseReactorService()` changes whether there is a reactor. -/
theorem hasReactorService_of_transition {a : Action T} (h : s.Transition a s') :
    s'.hasReactorService = (s.hasReactorService || usesReactor a) := by
  have hor : s.hasReactorService = (s.hasReactorService || false) := (Bool.or_false _).symm
  cases h with
  | finishStop | stop =>
    exact (woken_wakeAll { s with stopRequested := true }).1.hasReactorService.trans hor
  | enter _ =>
    simp only [enter]
    split <;> exact hor
  | takeNull _ _ _ hwake | takeJob _ _ _ hwake =>
    exact (woken_of_wakeForPending hwake).hasReactorService.trans hor
  | wake _ =>
    simp only [wake]
    split <;> exact hor
  | reactorReturn _ hreturn =>
    obtain ⟨-, hs'⟩ := Option.ite_none_left_eq_some.mp hreturn
    obtain rfl := Option.some.inj hs'
    exact hor
  | push _ hpush => exact (woken_of_wakeOne hpush).hasReactorService.trans hor
  | enqueue henqueue => exact (woken_of_wakeOne henqueue).hasReactorService.trans hor
  | @account t mode _ _ =>
    obtain ⟨count, info, pending, heq⟩ := s.account_eq t mode
    rw [heq]
    exact hor
  | @onJobCompletion t =>
    obtain ⟨count, pending, heq⟩ := s.onJobCompletion_eq t
    rw [heq]
    exact hor
  | useReactorService huse =>
    -- the one step that uses the service
    simp only [useReactorService, startReactorTask] at huse
    rw [usesReactor, Bool.or_true]
    split at huse
    · rename_i hservice
      obtain rfl := Option.some.inj huse
      exact hservice
    split at huse
    · obtain rfl := Option.some.inj huse
      rfl
    · exact (woken_of_wakeOne huse).hasReactorService
  | _ => exact hor

/-- A step that neither starts the reactor on a stopped executor nor gets an error from it. -/
def KeepsTurn (s : State T) : Action T → Prop
  | .useReactorService _ _ => s.hasReactorService = true ∨ s.stopRequested = false
  | .reactorError _ => False
  | _ => True

instance (s : State T) : (a : Action T) → Decidable (s.KeepsTurn a)
  | .useReactorService _ _ => inferInstanceAs (Decidable (_ ∨ _))
  | .reactorError _ => inferInstanceAs (Decidable False)
  | .enter _ _ | .processNext _ _ | .wake _ | .spuriousWake _ | .reactorReturn _ _ _
  | .reactorRelock _ | .post _ _ | .dispatch _ _ | .push _ _ | .enqueuePostJobArrival _ _ _
  | .account _ | .relock _ | .onJobArrival _ | .onJobCompletion _ | .finishStop _ | .stop _
  | .restart _ => inferInstanceAs (Decidable True)

/-- Without the two exceptions there is a turn exactly if there is a reactor. -/
theorem reactorTurns_of_reachable (hs : (machine T).ReachableIn KeepsTurn s) :
    s.reactorTurns = s.hasReactorService.toNat := by
  refine hs.invariant (I := fun s => s.reactorTurns = s.hasReactorService.toNat) ?_ ?_
  · intro s hinit
    rw [show s = { singleThread := s.singleThread } from hinit]
    simp [reactorTurns, Thread.reactorTurns, Phase.isInReactorBranch]
  · intro s a s' hinv hC hs'
    have htrans := transition_of_step hs'
    have hturns := reactorTurns_of_transition htrans
    rw [hasReactorService_of_transition htrans]
    cases a with
    | useReactorService t u =>
      simp only [newTurns, lostTurns, usesReactor, hinv] at hturns ⊢
      -- the first use starts the task since the executor is not stopped
      rcases hC with hservice | hstop
      · simpa [hservice] using hturns
      · cases hservice : s.hasReactorService <;> simpa [hservice, hstop] using hturns
    | reactorError t => exact hC.elim
    | _ => simpa [newTurns, lostTurns, usesReactor, hinv] using hturns

omit [DecidableEq T] in
/-- Threads that together hold no turn are not in the branch. -/
theorem not_inReactorBranch (h : ∑ t, (s.threads t).reactorTurns = 0) (t : T) :
    (s.threads t).phase.isInReactorBranch = false := by
  have hle := le_sum Thread.reactorTurns s.threads t
  rw [h] at hle
  exact Bool.toNat_eq_zero.mp (Nat.le_zero.mp hle)

/-- Threads that together hold one turn have exactly one in the branch. -/
theorem existsUnique_inReactorBranch (h : ∑ t, (s.threads t).reactorTurns = 1) :
    ∃! t, (s.threads t).phase.isInReactorBranch = true := by
  obtain ⟨t, -, ht⟩ := Finset.exists_ne_zero_of_sum_ne_zero (h.trans_ne one_ne_zero)
  have hbranch : (s.threads t).phase.isInReactorBranch = true := by
    simpa [Thread.reactorTurns] using ht
  refine ⟨t, hbranch, fun v hv => ?_⟩
  by_contra hne
  have hboth := add_le_sum Thread.reactorTurns s.threads hne
  simp only [Thread.reactorTurns, hbranch,
    show (s.threads v).phase.isInReactorBranch = true from hv,
    Bool.toNat_true] at hboth h
  omega

/-- The queue has one null operation and no thread is in the reactor branch, or the queue has none
and exactly one thread is there. -/
def OneReactorMarker (s : State T) : Prop :=
  (s.operationQueue.count .null = 1 ∧ ∀ t, (s.threads t).phase.isInReactorBranch = false) ∨
  (s.operationQueue.count .null = 0 ∧ ∃! t, (s.threads t).phase.isInReactorBranch = true)

omit [Fintype T] [DecidableEq T] in
/-- Without a marker in the queue or a thread in the branch there is not one marker. -/
theorem not_oneReactorMarker (hqueue : s.operationQueue.count .null = 0)
    (hthreads : ∀ t, (s.threads t).phase.isInReactorBranch = false) : ¬ s.OneReactorMarker := by
  rintro (⟨hone, -⟩ | ⟨-, t, ht, -⟩)
  · omega
  · rw [hthreads t] at ht
    cases ht

end State

open State in
/-- Exactly one reactor marker. In every run in which the reactor's `Run()` returns no error and the
reactor service is first used while the executor is not stopped, once there is a reactor service
there is exactly one reactor marker: in the queue or with the one thread in the reactor branch. -/
theorem one_reactor_marker {T : Type} [Fintype T] [DecidableEq T] {s : State T}
    (hs : (machine T).ReachableIn KeepsTurn s) (hservice : s.hasReactorService = true) :
    s.OneReactorMarker := by
  have hturns := reactorTurns_of_reachable hs
  rw [hservice, Bool.toNat_true, reactorTurns] at hturns
  -- the one turn is in the queue or with a thread
  rcases Nat.eq_zero_or_pos (s.operationQueue.count .null) with hzero | hpos
  · exact .inr ⟨hzero, existsUnique_inReactorBranch (by omega)⟩
  · exact .inl ⟨by omega, not_inReactorBranch (by omega)⟩

open State in
/-- One worker is in the reactor while a second one runs the job that was behind the marker; then
the executor is stopped, and the marker is still with the first worker. -/
theorem one_reactor_marker_two_workers :
    ∃ s : State (Fin 2), (machine (Fin 2)).ReachableIn KeepsTurn s ∧ s.stopRequested = true ∧
      (s.threads 0).phase = .inReactor .run true ∧ (s.threads 1).phase = .running .run 7 ∧
      s.OneReactorMarker := by
  have hs := ToMathlib.Machine.reachableIn_get_run (M := machine (Fin 2)) (C := KeepsTurn)
    (s := { singleThread := false })
    (l := [.useReactorService 0 0, .post 0 7, .push 0 0, .enter 0 .run, .enter 1 .run,
      .processNext 0 0, .processNext 1 0, .stop 1]) rfl (by decide)
  exact ⟨_, hs, by decide, by decide, by decide, one_reactor_marker hs (by decide)⟩

open State in
/-- The marker is lost when the reactor's `Run()` returns an error, and it is never made when the
service is first used on a stopped executor, also not by `Restart()`. -/
theorem one_reactor_marker_lost :
    (∃ s : State (Fin 1), (machine (Fin 1)).Reachable s ∧ s.stopRequested = false ∧
      s.hasReactorService = true ∧ ¬ s.OneReactorMarker) ∧
    ∃ s : State (Fin 1),
      (machine (Fin 1)).ReachableIn (fun _ a => ∀ t, a ≠ .reactorError t) s ∧
      s.stopRequested = false ∧ s.hasReactorService = true ∧ ¬ s.OneReactorMarker := by
  constructor
  · have hs := ToMathlib.Machine.reachableIn_get_run (M := machine (Fin 1))
      (C := ToMathlib.Machine.Always) (s := {})
      (l := [.useReactorService 0 0, .onJobArrival 0, .enter 0 .run, .processNext 0 0,
        .reactorError 0]) rfl (by decide)
    exact ⟨_, hs, by decide, by decide, not_oneReactorMarker (by decide) (by decide)⟩
  · have hs := ToMathlib.Machine.reachableIn_get_run (M := machine (Fin 1))
      (C := fun _ a => ∀ t, a ≠ .reactorError t) (s := {})
      (l := [.stop 0, .useReactorService 0 0, .restart 0]) rfl (by decide)
    exact ⟨_, hs, by decide, by decide, not_oneReactorMarker (by decide) (by decide)⟩

end Asrt.WorkerPool
