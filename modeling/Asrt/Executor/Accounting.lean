import Asrt.Executor.Basic
import Asrt.ToMathlib.UpdateSum

/-!
# Job accounting of the executor

`job_count_` and the private counters of the threads together count the jobs that are outstanding:
announced but not pushed, waiting in the shared queue or in a private queue, executing and not yet
folded, or held open by a work guard. Every operation that was announced is in exactly one place
until its execution begins, and it begins once; one of these places is the private queue that was
destroyed with it.

All of this is one invariant, `Inv`, with three parts: the balance of the counters, the place of
every operation, and what the phase of a thread says about its `ThreadInfo`. A step changes the
shared members and one thread, so `Inv.update` reduces each part to an equation about that thread.

An operation that is posted while another one is destroyed stays behind in the private queue, and is
lost if the thread leaves (`job_accounting_destructor_post`). `job_accounting` is the accounting
without such posts.
-/

namespace Asrt.Executor

open ToMathlib (sum_update_add le_sum)

/-- One for a thread whose post has announced its arrival and is not pushed yet. -/
def Thread.announced (th : Thread) : ℕ :=
  match th.phase with
  | .posting _ => 1
  | _ => 0

/-- One for a thread that runs an operation whose counters are not folded yet. -/
def Thread.unaccounted (th : Thread) : ℕ :=
  match th.phase with
  | .running _ _ => 1
  | _ => 0

/-- The jobs a thread has taken responsibility for: an announced post, the operations of its private
queue, and an operation that runs and is not yet accounted. -/
def Thread.load (th : Thread) : ℕ :=
  th.announced + th.info.privateOpQueue.length + th.unaccounted

/-- How often an operation that has not begun is in the hands of a thread. -/
def Thread.held (op : OpId) (th : Thread) : ℕ :=
  th.info.privateOpQueue.count op + if th.phase = .posting op then 1 else 0

/-- One place for every operation whose identifier has been handed out, none for the others. -/
def issued (nextOp op : ℕ) : ℕ := if op < nextOp then 1 else 0

/-- Handing out an identifier makes one place for it. -/
theorem issued_succ (n op : ℕ) :
    issued (n + 1) op = issued n op + if n = op then 1 else 0 := by
  unfold issued
  split_ifs <;> omega

/-- What the phase of a thread says about its `ThreadInfo`. -/
def Thread.Valid (th : Thread) : Prop :=
  match th.phase with
  | .client | .posting _ => th.info.privateOpQueue = [] ∧ th.info.privateJobCount = 0
  | .accounted _ => th.info.privateJobCount = 0
  | _ => th.info.privateJobCount = th.info.privateOpQueue.length

/-- A valid thread never counts more private jobs than it is responsible for. -/
theorem Thread.Valid.privateJobCount_le {th : Thread} (h : th.Valid) :
    th.info.privateJobCount ≤ th.load := by
  unfold Thread.Valid at h
  unfold Thread.load
  split at h <;> omega

namespace State

variable {T : Type} [Fintype T]

/-- The number of outstanding jobs. -/
def outstanding (s : State T) : ℕ :=
  s.operationQueue.length + (∑ t, (s.threads t).load) + s.workGuards

/-- The jobs the counters stand for: `job_count_` and every `private_job_count_`. -/
def counted (s : State T) : ℕ := s.jobCount + ∑ t, (s.threads t).info.privateJobCount

/-- How often an announced operation is found: in the shared queue, with a thread, begun or lost. -/
def places (s : State T) (op : OpId) : ℕ :=
  s.operationQueue.count op + (∑ t, (s.threads t).held op) + s.started.count op + s.lost.count op

/-- The accounting invariant. -/
structure Inv (s : State T) : Prop where
  /-- The counters stand for exactly the outstanding jobs. -/
  balance : s.counted = s.outstanding
  /-- Every operation handed out is in exactly one place, and no other operation is anywhere. -/
  placed : ∀ op, s.places op = issued s.nextOp op
  /-- Every thread's `ThreadInfo` fits its phase. -/
  valid : ∀ t, (s.threads t).Valid

/-- A step is taken while one more job still fits the 32-bit counters. -/
def Bounded (s : State T) (_ : Action T) : Prop := s.outstanding + 1 < 2 ^ 32

instance (s : State T) (a : Action T) : Decidable (s.Bounded a) :=
  inferInstanceAs (Decidable (_ < _))

variable {s : State T} {t : T}

/-- The private counters stand for at most the jobs the threads are responsible for. -/
theorem Inv.sum_privateJobCount_le (h : s.Inv) :
    ∑ t, (s.threads t).info.privateJobCount ≤ ∑ t, (s.threads t).load :=
  Finset.sum_le_sum fun t _ => (h.valid t).privateJobCount_le

/-- With a work guard alive `job_count_` is positive. -/
theorem Inv.jobCount_pos_of_workGuards (h : s.Inv) (hg : s.workGuards ≠ 0) : 0 < s.jobCount := by
  have hb := h.balance
  have hle := h.sum_privateJobCount_le
  simp only [counted, outstanding] at hb
  omega

/-- With an operation running that posted nothing `job_count_` is positive. -/
theorem Inv.jobCount_pos_of_running (h : s.Inv) (hload : 0 < (s.threads t).load)
    (hpriv : (s.threads t).info.privateJobCount = 0) : 0 < s.jobCount := by
  have hb := h.balance
  have hlt : ∑ t, (s.threads t).info.privateJobCount < ∑ t, (s.threads t).load :=
    Finset.sum_lt_sum (fun t _ => (h.valid t).privateJobCount_le)
      ⟨t, Finset.mem_univ t, by omega⟩
  simp only [counted, outstanding] at hb
  omega

/-- The counter of one thread fits into the total. -/
theorem Inv.counters_le (h : s.Inv) (t : T) :
    s.jobCount + (s.threads t).info.privateJobCount ≤ s.outstanding := by
  have hb := h.balance
  have hle := le_sum (fun th : Thread => th.info.privateJobCount) s.threads t
  simp only [counted] at hb
  omega

end State

/-! ## One thread changes -/

namespace State

variable {T : Type} [Fintype T] [DecidableEq T] {s s' : State T} {t : T} {th : Thread}

/-- A step that replaces thread `t` by `th` keeps the invariant if the counters and the places
change by the same amount on both sides. -/
theorem Inv.update (h : s.Inv) (hthreads : s'.threads = Function.update s.threads t th)
    (hbalance : s'.jobCount + th.info.privateJobCount +
        (s.operationQueue.length + (s.threads t).load + s.workGuards) =
      s.jobCount + (s.threads t).info.privateJobCount +
        (s'.operationQueue.length + th.load + s'.workGuards))
    (hplaced : ∀ op, s'.operationQueue.count op + th.held op + s'.started.count op +
        s'.lost.count op + issued s.nextOp op =
      s.operationQueue.count op + (s.threads t).held op + s.started.count op +
        s.lost.count op + issued s'.nextOp op)
    (hvalid : th.Valid) : s'.Inv := by
  refine ⟨?_, ?_, ?_⟩
  -- only thread `t` contributes a new amount to the sums over the threads
  · have hold := h.balance
    have hpriv := sum_update_add (fun th : Thread => th.info.privateJobCount) s.threads t th
    have hload := sum_update_add Thread.load s.threads t th
    simp only [counted, outstanding, hthreads] at hold ⊢
    omega
  · intro op
    have hold := h.placed op
    have hheld := sum_update_add (Thread.held op) s.threads t th
    have hnew := hplaced op
    simp only [places, hthreads] at hold ⊢
    omega
  · intro u
    rw [hthreads]
    by_cases hu : u = t
    · subst hu; simpa using hvalid
    · simpa [Function.update_of_ne hu] using h.valid u

omit [DecidableEq T] in
/-- A step that keeps every thread and the queues keeps the invariant if `job_count_` and the work
guards change together. -/
theorem Inv.shared (h : s.Inv) (hthreads : s'.threads = s.threads)
    (hqueue : s'.operationQueue = s.operationQueue) (hstarted : s'.started = s.started)
    (hlost : s'.lost = s.lost) (hnext : s'.nextOp = s.nextOp)
    (hbalance : s'.jobCount + s.workGuards = s.jobCount + s'.workGuards) : s'.Inv := by
  refine ⟨?_, ?_, ?_⟩
  · have hold := h.balance
    simp only [counted, outstanding, hthreads, hqueue] at hold ⊢
    omega
  · intro op
    simpa only [places, hthreads, hqueue, hstarted, hlost, hnext] using h.placed op
  · simpa only [hthreads] using h.valid

/-! ## The steps -/

/-- Entering or leaving `Stop()` concerns no counter and no operation. -/
theorem Inv.setStopPending (h : s.Inv) (t : T) (b : Bool) :
    (s.setThread t { s.threads t with stopPending := b }).Inv :=
  h.update (t := t) rfl rfl (fun _ => rfl) (h.valid t)

omit [Fintype T] in
/-- `OnJobCompletion()` on a positive counter decrements it and leaves everything else alone. -/
theorem onJobCompletion_eq (hpos : 0 < s.jobCount) (hlt : s.jobCount < 2 ^ 32) (t : T) :
    s.onJobCompletion t = { s with jobCount := s.jobCount - 1 } := by
  have hne : s.jobCount ≠ 0 := hpos.ne'
  simp only [onJobCompletion, hne, ↓reduceIte, fetchSub_one hpos hlt]

omit [Fintype T] [DecidableEq T] in
/-- `OnJobArrival()` increments the counter while the jobs fit. -/
theorem onJobArrival_eq (hb : s.jobCount + 1 < 2 ^ 32) :
    s.onJobArrival = { s with jobCount := s.jobCount + 1 } := by
  simp only [onJobArrival, fetchAdd_eq hb]

/-- Entering `Run()` starts with an empty `ThreadInfo`. -/
theorem Inv.enter (h : s.Inv) (hphase : (s.threads t).phase = .client) (mode : RunMode) :
    (s.enter t mode).Inv := by
  have hv := h.valid t
  simp only [Thread.Valid, hphase] at hv
  unfold State.enter
  split
  -- no jobs: the thread goes on to `Stop()`
  · exact h.setStopPending t true
  · refine h.update (t := t) rfl ?_ ?_ ?_
    · simp [Thread.load, Thread.announced, Thread.unaccounted, hphase, hv.1, hv.2]
    · intro op
      simp [Thread.held, hphase, hv.1]
    · rfl

/-- A thread between two operations. -/
def Thread.Idle (ph : Phase) : Prop := ∃ mode, ph = .processing mode ∨ ph = .waiting mode

/-- A thread may begin and end a wait. -/
theorem Inv.setPhase (h : s.Inv) {ph : Phase} (hold : Thread.Idle (s.threads t).phase)
    (hnew : Thread.Idle ph) (n : ℕ) :
    ({ s with cvWaitCount := n }.setThread t { s.threads t with phase := ph }).Inv := by
  have hv := h.valid t
  obtain ⟨m, ho | ho⟩ := hold <;> obtain ⟨m', rfl | rfl⟩ := hnew <;>
  · simp only [Thread.Valid, ho] at hv
    refine h.update (t := t) rfl ?_ ?_ hv
    · simp [Thread.load, Thread.announced, Thread.unaccounted, ho]
    · intro op
      simp [Thread.held, ho]

/-- A thread that leaves drops what is in its private queue, and the private counter with it. -/
theorem Inv.leave (h : s.Inv) (hphase : (∃ mode, (s.threads t).phase = .processing mode) ∨
    ∃ mode, (s.threads t).phase = .destroying mode) : (s.leave t).Inv := by
  have hv := h.valid t
  obtain ⟨mode, hphase⟩ | ⟨mode, hphase⟩ := hphase <;>
  · simp only [Thread.Valid, hphase] at hv
    refine h.update (t := t) rfl ?_ ?_ ⟨rfl, rfl⟩
    · simp [State.leave, Thread.load, Thread.announced, Thread.unaccounted, hphase, hv]
      omega
    · intro op
      simp [State.leave, Thread.held, hphase]
      omega

/-- One iteration of the loop either leaves the queue alone or begins its first operation. -/
theorem Inv.processNext (h : s.Inv) {mode : RunMode}
    (hphase : (s.threads t).phase = .processing mode) : (s.processNext t mode).Inv := by
  have hv := h.valid t
  simp only [Thread.Valid, hphase] at hv
  have hleave : (s.leave t).Inv := h.leave (.inl ⟨mode, hphase⟩)
  unfold State.processNext
  split
  -- `RunOne()` finds the queue empty
  · exact hleave
  split
  -- a stop was requested
  · exact hleave
  split
  -- the operation leaves the queue and has begun, and the thread becomes responsible for it
  · rename_i op rest hq
    refine h.update (t := t) rfl ?_ ?_ hv
    · simp [Thread.load, Thread.announced, Thread.unaccounted, hphase, hq]
      omega
    · intro op'
      simp only [setThread_operationQueue, setThread_started, setThread_nextOp, setThread_lost,
        Thread.held, hphase, hq, List.count_cons, reduceCtorEq, ↓reduceIte]
      omega
  -- `Run()` waits for the condition variable
  · exact h.setPhase ⟨mode, .inl hphase⟩ ⟨mode, .inr rfl⟩ (s.cvWaitCount + 1)

/-- Returning from the wait changes no job. -/
theorem Inv.wake (h : s.Inv) {mode : RunMode} (hphase : (s.threads t).phase = .waiting mode)
    (hs' : s.wake t mode = some s') : s'.Inv := by
  unfold State.wake at hs'
  split at hs'
  · cases hs'
  · obtain rfl := Option.some.inj hs'
    exact h.setPhase ⟨mode, .inr hphase⟩ ⟨mode, .inl rfl⟩ _

/-- Announcing a post adds one job and hands out one identifier. -/
theorem Inv.announce (h : s.Inv) (hb : s.outstanding + 1 < 2 ^ 32)
    (hphase : (s.threads t).phase = .client) : (s.announce t).Inv := by
  have hv := h.valid t
  simp only [Thread.Valid, hphase] at hv
  have hc := h.counters_le t
  unfold State.announce
  rw [onJobArrival_eq (by omega)]
  refine h.update (t := t) rfl ?_ ?_ ?_
  · simp [Thread.load, Thread.announced, Thread.unaccounted, hphase, hv.1]
    omega
  · intro op
    simp only [setThread_operationQueue, setThread_started, setThread_nextOp, setThread_lost,
      Thread.held, hphase, hv.1, List.count_nil, Phase.posting.injEq, reduceCtorEq, ↓reduceIte,
      issued_succ]
    omega
  · simpa [Thread.Valid] using hv

/-- A post made by a job, or while one is destroyed, adds one job to the thread's own counter and
queue. -/
theorem Inv.enqueuePrivate (h : s.Inv) (hb : s.outstanding + 1 < 2 ^ 32)
    (hphase : (∃ mode op, (s.threads t).phase = .running mode op) ∨
      ∃ mode, (s.threads t).phase = .destroying mode) : (s.enqueuePrivate t).Inv := by
  have hv := h.valid t
  have hc := h.counters_le t
  have hadd : fetchAdd (s.threads t).info.privateJobCount 1 =
      (s.threads t).info.privateJobCount + 1 := fetchAdd_eq (by omega)
  unfold State.enqueuePrivate
  obtain ⟨mode, op, hphase⟩ | ⟨mode, hphase⟩ := hphase <;>
  · simp only [Thread.Valid, hphase] at hv
    refine h.update (t := t) rfl ?_ ?_ ?_
    · simp [Thread.load, Thread.announced, Thread.unaccounted, hphase, hadd]
      omega
    · intro op'
      simp only [setThread_operationQueue, setThread_started, setThread_nextOp, setThread_lost,
        Thread.held, hphase, List.count_append, List.count_singleton, reduceCtorEq, ↓reduceIte,
        beq_iff_eq, issued_succ]
      omega
    · simp only [Thread.Valid, hphase, hadd, List.length_append, List.length_singleton]
      omega

/-- The locked part of a post moves the operation from the thread to the shared queue. -/
theorem Inv.push (h : s.Inv) {op : OpId} (hphase : (s.threads t).phase = .posting op) :
    (s.push t op).Inv := by
  have hv := h.valid t
  simp only [Thread.Valid, hphase] at hv
  refine h.update (t := t) rfl ?_ ?_ hv
  · simp [State.push, Thread.load, Thread.announced, Thread.unaccounted, hphase, hv.1]
  · intro op'
    simp only [State.push, setThread_operationQueue, setThread_started, setThread_nextOp,
      setThread_lost, Thread.held, hphase, hv.1, List.count_append, List.count_singleton,
      List.count_nil, Phase.posting.injEq, reduceCtorEq, ↓reduceIte, beq_iff_eq]
    omega

/-- Whatever the private count is, the fold adds it to `job_count_` and takes one job off. -/
theorem Inv.account_eq (h : s.Inv) (hb : s.outstanding + 1 < 2 ^ 32) {mode : RunMode} {op : OpId}
    (hphase : (s.threads t).phase = .running mode op) :
    s.account t mode =
      { s with jobCount := s.jobCount + (s.threads t).info.privateJobCount - 1 }.setThread t
        { s.threads t with
          phase := .accounted mode
          info := { (s.threads t).info with privateJobCount := 0 } } ∧
    0 < s.jobCount + (s.threads t).info.privateJobCount := by
  have hc := h.counters_le t
  have hload : 0 < (s.threads t).load := by
    simp [Thread.load, Thread.announced, Thread.unaccounted, hphase]
  -- the source tells the private counts 0, 1 and more apart
  rcases Nat.lt_trichotomy (s.threads t).info.privateJobCount 1 with hp | hp | hp
  -- nothing was posted: `OnJobCompletion()`, on a counter that still has this job
  · have hp0 : (s.threads t).info.privateJobCount = 0 := by omega
    have hpos := h.jobCount_pos_of_running hload hp0
    refine ⟨?_, by omega⟩
    simp [State.account, hp0, onJobCompletion_eq hpos (by omega)]
  -- the job that was posted takes the place of the one that returned
  · refine ⟨?_, by omega⟩
    simp [State.account, hp]
  · refine ⟨?_, by omega⟩
    have hadd : fetchAdd s.jobCount ((s.threads t).info.privateJobCount - 1) =
        s.jobCount + (s.threads t).info.privateJobCount - 1 := by
      rw [fetchAdd_eq (by omega)]
      omega
    simp [State.account, hp, hadd]

/-- The fold settles the operation that returned. -/
theorem Inv.account (h : s.Inv) (hb : s.outstanding + 1 < 2 ^ 32) {mode : RunMode} {op : OpId}
    (hphase : (s.threads t).phase = .running mode op) : (s.account t mode).Inv := by
  obtain ⟨heq, hpos⟩ := h.account_eq hb hphase
  rw [heq]
  refine h.update (t := t) rfl ?_ ?_ rfl
  · simp [Thread.load, Thread.announced, Thread.unaccounted, hphase]
    omega
  · intro op'
    simp [Thread.held, hphase]

/-- Moving the private queue to the shared one loses and invents nothing. -/
theorem Inv.relock (h : s.Inv) {mode : RunMode}
    (hphase : (s.threads t).phase = .accounted mode) : (s.relock t mode).Inv := by
  have hv := h.valid t
  simp only [Thread.Valid, hphase] at hv
  refine h.update (t := t) rfl ?_ ?_ hv
  · simp [State.relock, Thread.load, Thread.announced, Thread.unaccounted, hphase]
  · intro op
    simp [State.relock, Thread.held, hphase]

/-- After the operation is destroyed the thread goes on or leaves. -/
theorem Inv.returnProcessed (h : s.Inv) {mode : RunMode}
    (hphase : (s.threads t).phase = .destroying mode) : (s.returnProcessed t mode).Inv := by
  have hv := h.valid t
  simp only [Thread.Valid, hphase] at hv
  cases mode with
  | run =>
    refine h.update (t := t) rfl ?_ ?_ hv
    · simp [State.returnProcessed, Thread.load, Thread.announced, Thread.unaccounted, hphase]
    · intro op
      simp [State.returnProcessed, Thread.held, hphase]
  | runOne => exact h.leave (.inr ⟨.runOne, hphase⟩)

omit [DecidableEq T] in
/-- Creating a work guard adds one job. -/
theorem Inv.createGuard (h : s.Inv) (hb : s.outstanding + 1 < 2 ^ 32) :
    State.Inv { s.onJobArrival with workGuards := s.workGuards + 1 } := by
  have hbal := h.balance
  simp only [counted] at hbal
  rw [onJobArrival_eq (by omega)]
  refine h.shared rfl rfl rfl rfl rfl ?_
  simp only
  omega

/-- Destroying a work guard takes one job off a positive counter. -/
theorem Inv.destroyGuard (h : s.Inv) (hb : s.outstanding + 1 < 2 ^ 32)
    (hs' : s.destroyGuard t = some s') : s'.Inv := by
  unfold State.destroyGuard at hs'
  split at hs'
  · cases hs'
  · rename_i hg
    have hpos := h.jobCount_pos_of_workGuards hg
    have hc := h.counters_le t
    obtain rfl := Option.some.inj hs'
    have heq := onJobCompletion_eq (s := { s with workGuards := s.workGuards - 1 }) hpos
      (by simp only; omega) t
    rw [heq]
    refine h.shared rfl rfl rfl rfl rfl ?_
    simp only
    omega

/-- Every step keeps the accounting invariant. -/
theorem Inv.step (h : s.Inv) {a : Action T} (hb : s.Bounded a) (hs' : s.step a = some s') :
    s'.Inv := by
  cases transition_of_step hs' with
  | finishStop hpending =>
    have hstopped : State.Inv { s with stopRequested := true } := h.shared rfl rfl rfl rfl rfl rfl
    exact hstopped.setStopPending _ false
  | enter hpending hphase => exact h.enter hphase _
  | processNext hphase => exact h.processNext hphase
  | wake hphase hwake => exact h.wake hphase hwake
  | postOutside hphase => exact h.announce hb hphase
  | postInside hphase => exact h.enqueuePrivate hb (.inl ⟨_, _, hphase⟩)
  | postDestroying hphase => exact h.enqueuePrivate hb (.inr ⟨_, hphase⟩)
  | dispatchOutside hphase => exact h.announce hb hphase
  -- the dispatched operation is part of the code that calls
  | dispatchInside hphase => exact h
  | push hphase => exact h.push hphase
  | account hphase => exact h.account hb hphase
  | relock hphase => exact h.relock hphase
  | returnProcessed hphase => exact h.returnProcessed hphase
  | createGuard => exact h.createGuard hb
  | destroyGuard hdestroy => exact h.destroyGuard hb hdestroy
  -- the stop flag is no part of the accounting
  | stop => exact h.shared rfl rfl rfl rfl rfl rfl
  | restart => exact h.shared rfl rfl rfl rfl rfl rfl

omit [DecidableEq T] in
/-- The empty executor satisfies the invariant. -/
theorem Inv.init : ({} : State T).Inv where
  balance := by simp [counted, outstanding, Thread.load, Thread.announced, Thread.unaccounted]
  placed op := by simp [places, Thread.held, issued]
  valid t := ⟨rfl, rfl⟩

/-- The accounting invariant holds in every reachable state. -/
theorem Inv.of_reachable (hs : (machine T).ReachableIn Bounded s) : s.Inv :=
  hs.invariant (fun _ h => h ▸ Inv.init) fun _ _ _ h hb ht => h.step hb ht

omit [DecidableEq T] in
/-- An operation handed out is in one of its possible places. -/
theorem Inv.mem_of_issued (h : s.Inv) {op : ℕ} (hop : op < s.nextOp) (hnot : op ∉ s.started)
    (hlost : op ∉ s.lost) :
    op ∈ s.operationQueue ∨
      ∃ t, op ∈ (s.threads t).info.privateOpQueue ∨ (s.threads t).phase = .posting op := by
  have hplaced := h.placed op
  simp only [places, issued, hop, ↓reduceIte, List.count_eq_zero_of_not_mem hnot,
    List.count_eq_zero_of_not_mem hlost] at hplaced
  -- otherwise no place is left for the identifier that was handed out
  by_contra hcon
  simp only [not_or, not_exists] at hcon
  have hsum : ∑ t, (s.threads t).held op = 0 := by
    refine Finset.sum_eq_zero fun t _ => ?_
    simp [Thread.held, List.count_eq_zero_of_not_mem (hcon.2 t).1, (hcon.2 t).2]
  rw [hsum, List.count_eq_zero_of_not_mem hcon.1] at hplaced
  omega

omit [DecidableEq T] in
/-- An operation that has begun is in no queue any more and has begun once. -/
theorem Inv.not_queued_of_started (h : s.Inv) {op : ℕ} (hop : op ∈ s.started) :
    s.started.count op = 1 ∧ op ∉ s.operationQueue ∧
      ∀ t, op ∉ (s.threads t).info.privateOpQueue := by
  have hplaced := h.placed op
  have hpos : 0 < s.started.count op := List.count_pos_iff.mpr hop
  -- an operation has at most one place, and this one is taken by `started`
  have hissued : issued s.nextOp op ≤ 1 := by unfold issued; split_ifs <;> omega
  simp only [places] at hplaced
  refine ⟨by omega, fun hmem => ?_, fun t hmem => ?_⟩
  · have := List.count_pos_iff.mpr hmem
    omega
  · have hle := le_sum (Thread.held op) s.threads t
    have hheld : (s.threads t).info.privateOpQueue.count op ≤ (s.threads t).held op :=
      Nat.le_add_right _ _
    have hcount := List.count_pos_iff.mpr hmem
    omega

end State

/-! ## Runs in which no closure posts while it is destroyed -/

/-- The thread destroys an operation. -/
def Phase.isDestroying : Phase → Bool
  | .destroying _ => true
  | _ => false

/-- Only a thread that runs an operation, or has just run one, has something in its private
queue. -/
def Thread.Drained (th : Thread) : Prop :=
  match th.phase with
  | .running _ _ | .accounted _ => True
  | _ => th.info.privateOpQueue = []

namespace State

variable {T : Type} {s s' : State T} {t : T} {th : Thread}

/-- The step is not a post by the destructor of a closure. -/
def DestroysQuietly (s : State T) : Action T → Prop
  | .post t => (s.threads t).phase.isDestroying = false
  | _ => True

/-- No closure posts while it is destroyed, and one more job fits the counters. -/
def QuietBounded [Fintype T] (s : State T) (a : Action T) : Prop :=
  s.DestroysQuietly a ∧ s.Bounded a

instance (s : State T) : (a : Action T) → Decidable (s.DestroysQuietly a)
  | .post _ => inferInstanceAs (Decidable (_ = _))
  | .enter _ _ | .processNext _ | .wake _ | .dispatch _ | .push _ | .account _ | .relock _
  | .returnProcessed _ | .createGuard _ | .destroyGuard _ | .finishStop _ | .stop _ | .restart _ =>
    .isTrue trivial

instance [Fintype T] (s : State T) (a : Action T) : Decidable (s.QuietBounded a) :=
  inferInstanceAs (Decidable (_ ∧ _))

/-- Every thread has an empty private queue when it may leave, and no operation was lost. -/
structure Drained (s : State T) : Prop where
  threads : ∀ t, (s.threads t).Drained
  lost : s.lost = []

variable [DecidableEq T]

/-- A step that replaces one thread. -/
theorem Drained.update (h : s.Drained) (hthreads : s'.threads = Function.update s.threads t th)
    (hth : th.Drained) (hlost : s'.lost = []) : s'.Drained := by
  refine ⟨fun u => ?_, hlost⟩
  rw [hthreads]
  by_cases hu : u = t
  · subst hu
    rwa [Function.update_self]
  · rw [Function.update_of_ne hu]
    exact h.threads u

/-- A thread with nothing in its private queue loses nothing when it leaves. -/
theorem Drained.leave (h : s.Drained) (hprivate : (s.threads t).info.privateOpQueue = []) :
    (s.leave t).Drained := by
  refine h.update rfl rfl ?_
  show s.lost ++ (s.threads t).info.privateOpQueue = []
  rw [h.lost, hprivate, List.append_nil]

/-- One iteration of the loop. -/
theorem Drained.processNext (h : s.Drained) {mode : RunMode}
    (hphase : (s.threads t).phase = .processing mode) : (s.processNext t mode).Drained := by
  have hprivate := h.threads t
  simp only [Thread.Drained, hphase] at hprivate
  unfold State.processNext
  split
  · exact h.leave hprivate
  split
  · exact h.leave hprivate
  split
  · exact h.update (t := t) rfl trivial h.lost
  · exact h.update (t := t) rfl hprivate h.lost

/-- After the operation is destroyed the thread goes on or leaves. -/
theorem Drained.returnProcessed (h : s.Drained) {mode : RunMode}
    (hphase : (s.threads t).phase = .destroying mode) : (s.returnProcessed t mode).Drained := by
  have hprivate := h.threads t
  simp only [Thread.Drained, hphase] at hprivate
  cases mode with
  | run => exact h.update (t := t) rfl hprivate h.lost
  | runOne => exact h.leave hprivate

/-- `OnJobCompletion()` changes the counter and may leave the thread inside `Stop()`. -/
theorem exists_onJobCompletion_eq (s : State T) (t : T) :
    ∃ (count : ℕ) (pending : Bool), s.onJobCompletion t =
      { s with jobCount := count }.setThread t { s.threads t with stopPending := pending } := by
  simp only [onJobCompletion]
  split
  · exact ⟨_, _, rfl⟩
  · refine ⟨fetchSub s.jobCount 1, (s.threads t).stopPending, ?_⟩
    simp only [setThread, Function.update_eq_self]

/-- `OnJobCompletion()` concerns no queue. -/
theorem Drained.onJobCompletion (h : s.Drained) (t : T) : (s.onJobCompletion t).Drained := by
  obtain ⟨count, pending, heq⟩ := s.exists_onJobCompletion_eq t
  rw [heq]
  exact h.update (t := t) rfl (h.threads t) h.lost

/-- A thread whose operation has returned leaves its private queue to the transfer that follows. -/
theorem Drained.setAccounted (h : s.Drained) {mode : RunMode} (hth : th.phase = .accounted mode) :
    (s.setThread t th).Drained :=
  h.update (t := t) rfl (by simp [Thread.Drained, hth]) h.lost

/-- The fold concerns no queue. -/
theorem Drained.account (h : s.Drained) (t : T) (mode : RunMode) : (s.account t mode).Drained := by
  have hcount (n : ℕ) : { s with jobCount := n }.Drained := ⟨h.threads, h.lost⟩
  unfold State.account
  refine Drained.setAccounted ?_ rfl
  split
  · exact hcount _
  split
  · exact h.onJobCompletion t
  · exact h

/-- Every step but a post by a destructor keeps the private queues so. -/
theorem Drained.step (h : s.Drained) {a : Action T} (hquiet : s.DestroysQuietly a)
    (hs' : s.step a = some s') : s'.Drained := by
  cases transition_of_step hs' with
  | finishStop _ => exact h.update rfl (h.threads _) h.lost
  | enter _ _ =>
    simp only [State.enter]
    split
    · exact h.update rfl (h.threads _) h.lost
    · exact h.update rfl rfl h.lost
  | processNext hphase => exact h.processNext hphase
  | @wake t mode s' hphase hwake =>
    have hprivate := h.threads t
    simp only [Thread.Drained, hphase] at hprivate
    obtain ⟨-, hs'⟩ := Option.ite_none_left_eq_some.mp hwake
    obtain rfl := Option.some.inj hs'
    exact h.update (t := t) rfl hprivate h.lost
  | @postOutside t hphase | @dispatchOutside t hphase =>
    have hprivate := h.threads t
    simp only [Thread.Drained, hphase] at hprivate
    exact h.update (t := t) rfl hprivate h.lost
  | @postInside t mode op hphase =>
    exact h.update (t := t) rfl (by simp [Thread.Drained, hphase]) h.lost
  | postDestroying hphase =>
    simp [DestroysQuietly, hphase, Phase.isDestroying] at hquiet
  | dispatchInside _ => exact h
  | @push t op hphase =>
    have hprivate := h.threads t
    simp only [Thread.Drained, hphase] at hprivate
    exact h.update (t := t) rfl hprivate h.lost
  | account _ => exact h.account _ _
  | relock _ => exact h.update rfl rfl h.lost
  | returnProcessed hphase => exact h.returnProcessed hphase
  | createGuard | stop | restart => exact ⟨h.threads, h.lost⟩
  | @destroyGuard t s' hdestroy =>
    obtain ⟨-, hs'⟩ := Option.ite_none_left_eq_some.mp hdestroy
    obtain rfl := Option.some.inj hs'
    have hguards : { s with workGuards := s.workGuards - 1 }.Drained := ⟨h.threads, h.lost⟩
    exact hguards.onJobCompletion t

/-- The private queues are so in every run in which no closure posts while it is destroyed. -/
theorem Drained.of_reachable [Fintype T] (hs : (machine T).ReachableIn QuietBounded s) :
    s.Drained := by
  refine hs.invariant (fun s hinit => ?_) fun _ _ _ h hC hs' => h.step hC.1 hs'
  rw [show s = {} from hinit]
  exact ⟨fun _ => rfl, rfl⟩

variable [Fintype T]

/-- The counters add up to the jobs that are outstanding. An operation that has begun has begun once
and is in no queue, one that has not is still in a queue (or about to be pushed), and the private
queue of a thread is empty but between the call of an operation and the transfer that follows. -/
structure Accounted (s : State T) : Prop where
  balance : s.jobCount + ∑ t, (s.threads t).info.privateJobCount =
    (∑ t, (s.threads t).announced) + s.operationQueue.length +
      (∑ t, (s.threads t).info.privateOpQueue.length) + (∑ t, (s.threads t).unaccounted) +
      s.workGuards
  once : ∀ op ∈ s.started, s.started.count op = 1 ∧ op ∉ s.operationQueue ∧
    ∀ t, op ∉ (s.threads t).info.privateOpQueue
  kept : ∀ op < s.nextOp, op ∉ s.started → op ∈ s.operationQueue ∨
    ∃ t, op ∈ (s.threads t).info.privateOpQueue ∨ (s.threads t).phase = .posting op
  transferred : ∀ t, (∀ mode op, (s.threads t).phase ≠ .running mode op) →
    (∀ mode, (s.threads t).phase ≠ .accounted mode) → (s.threads t).info.privateOpQueue = []

end State

open State in
/-- Job accounting and exactly-once execution. In every state of every run in which no closure posts
while it is destroyed and the jobs fit the 32-bit counters: `job_count_` and the private counters
add up to the posts announced and not pushed, the operations of the shared and of all private
queues, the operations running and not yet accounted and the live work guards; every operation
begins at most once and is in a queue until then; and `ProcessNextOperation()` leaves no operation
in a private queue. -/
theorem job_accounting {T : Type} [Fintype T] [DecidableEq T] {s : State T}
    (hs : (machine T).ReachableIn QuietBounded s) : s.Accounted := by
  have h := Inv.of_reachable (hs.mono fun _ _ hC => hC.2)
  have hdrained := Drained.of_reachable hs
  refine ⟨?_, fun op hop => h.not_queued_of_started hop, fun op hop hnot => ?_,
    fun t hrun hacc => ?_⟩
  -- the sum of the loads, term by term
  · have hb := h.balance
    simp only [counted, outstanding, Thread.load, Finset.sum_add_distrib] at hb
    omega
  · exact h.mem_of_issued hop hnot (by simp [hdrained.lost])
  · have hprivate := hdrained.threads t
    unfold Thread.Drained at hprivate
    split at hprivate
    · exact absurd ‹_› (hrun _ _)
    · exact absurd ‹_› (hacc _)
    · exact hprivate

open State in
/-- A worker whose job posts two more jobs: after the fold both operations are in its private queue
and `job_count_` is two. -/
theorem job_accounting_nested_posts :
    ∃ s : State (Fin 1), (machine (Fin 1)).ReachableIn QuietBounded s ∧
      s.jobCount = 2 ∧ (s.threads 0).info.privateOpQueue = [1, 2] ∧ s.Accounted := by
  have hs := ToMathlib.Machine.reachableIn_get_run (M := machine (Fin 1)) (C := QuietBounded)
    (s := {}) (l := [.post 0, .push 0, .enter 0 .run, .processNext 0, .post 0, .post 0, .account 0])
    rfl (by decide)
  exact ⟨_, hs, by decide, by decide, job_accounting hs⟩

open State in
/-- A captured object posts in its destructor. In `RunOne()` the operation is destroyed with the
private queue: it has not begun and is nowhere. In `Run()` it stays in the private queue of a thread
that waits for an operation in the shared one. -/
theorem job_accounting_destructor_post :
    (∃ s : State (Fin 1), (machine (Fin 1)).ReachableIn Bounded s ∧ s.started = [0] ∧
      s.nextOp = 2 ∧ s.lost = [1] ∧ ¬ s.Accounted) ∧
    ∃ s : State (Fin 1), (machine (Fin 1)).ReachableIn Bounded s ∧
      (s.threads 0).phase = .waiting .run ∧ (s.threads 0).info.privateOpQueue = [1] ∧
      ¬ s.Accounted := by
  constructor
  · have hs := ToMathlib.Machine.reachableIn_get_run (M := machine (Fin 1)) (C := Bounded)
      (s := {}) (l := [.post 0, .push 0, .enter 0 .runOne, .processNext 0, .account 0, .relock 0,
        .post 0, .returnProcessed 0]) rfl (by decide)
    refine ⟨_, hs, by decide, by decide, by decide, fun h => ?_⟩
    exact absurd (h.kept 1 (by decide) (by decide)) (by decide)
  · have hs := ToMathlib.Machine.reachableIn_get_run (M := machine (Fin 1)) (C := Bounded)
      (s := {}) (l := [.post 0, .push 0, .enter 0 .run, .processNext 0, .account 0, .relock 0,
        .post 0, .returnProcessed 0, .processNext 0]) rfl (by decide)
    refine ⟨_, hs, by decide, by decide, fun h => ?_⟩
    have hnil := h.transferred 0 (fun _ _ hphase => Phase.noConfusion hphase)
      fun _ hphase => Phase.noConfusion hphase
    exact absurd hnil (by decide)

end Asrt.Executor
