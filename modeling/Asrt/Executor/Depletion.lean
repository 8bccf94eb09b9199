import Asrt.Executor.Accounting

/-!
# Stopping on job depletion

The executor is meant to stop when it runs out of jobs: `OnJobCompletion()` decrements `job_count_`
and calls `Stop()` if the counter has reached zero. The comparison is made with the value that
`fetch_sub` returns, which is the value before the decrement, and by the accounting invariant that
value is never zero. So no completion ever stops the executor, and the only call of `Stop()` the
executor makes is the one at the entry of `Run()` and `RunOne()`.

`outstanding_step` says what a step does to the number of outstanding jobs and `stopping_step` which
steps call `Stop()`. Together they characterise, step by step, the runs on which the executor stops
exactly when its jobs are depleted. Jobs also cease to be outstanding when a thread leaves with what
the destructors of closures have posted to its private queue.
-/

namespace Asrt.Executor

open ToMathlib (sum_update_add Machine)

/-- The step ends a job: an operation has returned, or a work guard is destroyed. -/
def Action.completes {T : Type} : Action T → Bool
  | .account _ | .destroyGuard _ => true
  | _ => false

/-- The step brings a job: a post or a work guard. -/
def Action.brings {T : Type} (s : State T) : Action T → Bool
  | .post _ | .createGuard _ => true
  -- inside the executor `Dispatch()` runs the operation inline
  | .dispatch t => (s.threads t).phase = .client
  | _ => false

namespace State

variable {T : Type}

/-- `Stop()` has been called: the flag is set, or a thread is about to set it. -/
def Stopping (s : State T) : Prop :=
  s.stopRequested = true ∨ ∃ t, (s.threads t).stopPending = true

/-- The thread leaves `Run()` or `RunOne()` in this step. -/
def Leaves (s : State T) : Action T → Bool
  | .processNext t =>
    match (s.threads t).phase with
    | .processing mode => (mode = .runOne ∧ s.operationQueue = []) ∨ s.stopRequested = true
    | _ => false
  | .returnProcessed t => (s.threads t).phase = .destroying .runOne
  | _ => false

/-- The jobs a step drops: those in the private queue of a thread that leaves. -/
def dropped (s : State T) (a : Action T) : ℕ :=
  if s.Leaves a then (s.threads a.thread).info.privateOpQueue.length else 0

/-- The step calls `OnJobCompletion()`. -/
def CallsOnJobCompletion (s : State T) : Action T → Prop
  | .account t => (s.threads t).info.privateJobCount = 0
  | .destroyGuard _ => True
  | _ => False

/-- The step calls `Run()` or `RunOne()` on an executor without jobs. -/
def EntersIdle (s : State T) : Action T → Prop
  | .enter _ _ => s.jobCount = 0
  | _ => False

/-- The user does not call `Stop()`, and one more job fits the counter. -/
def NoUserStop [Fintype T] (s : State T) (a : Action T) : Prop :=
  (match a with | .stop _ => False | _ => True) ∧ s.Bounded a

instance [Fintype T] (s : State T) : (a : Action T) → Decidable (s.NoUserStop a)
  | .stop _ => .isFalse fun h => h.1
  | .enter _ _ | .processNext _ | .wake _ | .post _ | .dispatch _ | .push _ | .account _
  | .relock _ | .returnProcessed _ | .createGuard _ | .destroyGuard _ | .finishStop _
  | .restart _ => inferInstanceAs (Decidable (True ∧ _))

variable [Fintype T]

instance (s : State T) : Decidable s.Stopping := inferInstanceAs (Decidable (_ ∨ _))

/-- The step ends the last outstanding job, or its thread leaves with the last ones. -/
def CompletesLast (s : State T) (a : Action T) : Prop :=
  (a.completes = true ∧ s.outstanding = 1) ∨ (0 < s.dropped a ∧ s.dropped a = s.outstanding)

/-- Unless it was stopping before, the executor starts to stop in this step if and only if the
number of outstanding jobs drops to zero in it. -/
def StopsOnDepletion (s : State T) (_ : Action T) (s' : State T) : Prop :=
  ¬ s.Stopping → (s'.Stopping ↔ 0 < s.outstanding ∧ s'.outstanding = 0)

variable [DecidableEq T] {s s' : State T} {t : T} {a : Action T}

/-! ## What a step does to the outstanding jobs and to the stop flag -/

/-- A step that replaces thread `t` changes the number of outstanding jobs by what the thread, the
queue and the guards contribute. -/
theorem outstanding_update {th : Thread} (ended brought : ℕ)
    (hthreads : s'.threads = Function.update s.threads t th)
    (hjobs : s'.operationQueue.length + th.load + s'.workGuards + ended =
      s.operationQueue.length + (s.threads t).load + s.workGuards + brought) :
    s'.outstanding + ended = s.outstanding + brought := by
  have hload := sum_update_add Thread.load s.threads t th
  simp only [outstanding, hthreads]
  omega

/-- If it does not touch the stop flags either, it keeps `Stopping`. -/
theorem effect_of_update {th : Thread} (ended brought : ℕ)
    (hthreads : s'.threads = Function.update s.threads t th)
    (hstop : s'.stopRequested = s.stopRequested)
    (hpending : th.stopPending = (s.threads t).stopPending)
    (hjobs : s'.operationQueue.length + th.load + s'.workGuards + ended =
      s.operationQueue.length + (s.threads t).load + s.workGuards + brought) :
    s'.outstanding + ended = s.outstanding + brought ∧ (s'.Stopping ↔ s.Stopping) := by
  refine ⟨outstanding_update ended brought hthreads hjobs, ?_⟩
  have hpend (u : T) : (s'.threads u).stopPending = (s.threads u).stopPending := by
    rw [hthreads]
    by_cases hu : u = t
    · subst hu; simpa using hpending
    · rw [Function.update_of_ne hu]
  simp only [Stopping, hstop, hpend]

omit [Fintype T] in
/-- A thread that starts to stop makes the executor stop. -/
theorem stopping_setStopPending (t : T) :
    (s.setThread t { s.threads t with stopPending := true }).Stopping :=
  .inr ⟨t, by simp⟩

/-- Entering `Run()` stops an executor without jobs and changes nothing about the jobs. -/
theorem effect_enter (h : s.Inv) (hphase : (s.threads t).phase = .client)
    (hpending : (s.threads t).stopPending = false) (mode : RunMode) :
    (s.enter t mode).outstanding = s.outstanding ∧
      (¬ s.Stopping → ((s.enter t mode).Stopping ↔ s.jobCount = 0)) := by
  have hv := h.valid t
  simp only [Thread.Valid, hphase] at hv
  unfold State.enter
  split
  -- the entry check finds no job and calls `Stop()`
  · rename_i hzero
    exact ⟨outstanding_update (t := t) 0 0 rfl rfl,
      fun _ => iff_of_true (stopping_setStopPending t) hzero⟩
  · rename_i hne
    have hthreads : (s.setThread t { phase := .processing mode, info := {} }).threads =
        Function.update s.threads t { phase := .processing mode, info := {} } := rfl
    obtain ⟨hout, hstop⟩ := effect_of_update 0 0 hthreads rfl hpending.symm
      (by simp [Thread.load, Thread.announced, Thread.unaccounted, hphase, hv.1])
    exact ⟨hout, fun hns => iff_of_false (fun hst => hns (hstop.mp hst)) hne⟩

/-- A thread that leaves drops what is in its private queue. -/
theorem effect_leave (hphase : (∃ mode, (s.threads t).phase = .processing mode) ∨
    ∃ mode, (s.threads t).phase = .destroying mode) :
    (s.leave t).outstanding + (s.threads t).info.privateOpQueue.length = s.outstanding ∧
      ((s.leave t).Stopping ↔ s.Stopping) := by
  refine effect_of_update (t := t) _ 0 rfl rfl rfl ?_
  obtain ⟨mode, hphase⟩ | ⟨mode, hphase⟩ := hphase <;>
  · simp [State.leave, Thread.load, Thread.announced, Thread.unaccounted, hphase]
    omega

/-- One iteration of the loop ends and brings no job, unless the thread leaves. -/
theorem effect_processNext {mode : RunMode} (hphase : (s.threads t).phase = .processing mode) :
    (s.processNext t mode).outstanding + s.dropped (.processNext t) = s.outstanding ∧
      ((s.processNext t mode).Stopping ↔ s.Stopping) := by
  have hleave := effect_leave (.inl ⟨mode, hphase⟩)
  unfold State.processNext
  -- the thread leaves, leaves, begins the first operation of the queue, or waits
  split
  · rename_i hempty
    rwa [dropped, if_pos (by simp [Leaves, hphase, hempty])]
  rename_i hrun
  split
  · rename_i hstop
    rwa [dropped, if_pos (by simp [Leaves, hphase, hstop])]
  rename_i hstop
  rw [dropped, if_neg (by simp [Leaves, hphase, hrun, hstop])]
  split
  · rename_i hq
    exact effect_of_update (t := t) 0 0 rfl rfl rfl
      (by simp [Thread.load, Thread.announced, Thread.unaccounted, hphase, hq]; omega)
  · exact effect_of_update (t := t) 0 0 rfl rfl rfl
      (by simp [Thread.load, Thread.announced, Thread.unaccounted, hphase])

/-- The return of `ProcessNextOperation()` ends and brings no job, unless the thread leaves. -/
theorem effect_returnProcessed {mode : RunMode} (hphase : (s.threads t).phase = .destroying mode) :
    (s.returnProcessed t mode).outstanding + s.dropped (.returnProcessed t) = s.outstanding ∧
      ((s.returnProcessed t mode).Stopping ↔ s.Stopping) := by
  cases mode with
  | run =>
    rw [dropped, if_neg (by simp [Leaves, hphase])]
    exact effect_of_update (t := t) 0 0 rfl rfl rfl
      (by simp [returnProcessed, Thread.load, Thread.announced, Thread.unaccounted, hphase])
  | runOne =>
    rw [dropped, if_pos (by simp [Leaves, hphase])]
    exact effect_leave (.inr ⟨.runOne, hphase⟩)

/-- Returning from the wait ends and brings no job. -/
theorem effect_wake {mode : RunMode} (hphase : (s.threads t).phase = .waiting mode)
    (hs' : s.wake t mode = some s') :
    s'.outstanding = s.outstanding ∧ (s'.Stopping ↔ s.Stopping) := by
  unfold State.wake at hs'
  split at hs'
  · cases hs'
  · obtain rfl := Option.some.inj hs'
    exact effect_of_update (t := t) 0 0 rfl rfl rfl
      (by simp [Thread.load, Thread.announced, Thread.unaccounted, hphase])

/-- A post made outside brings one job. -/
theorem effect_announce (hphase : (s.threads t).phase = .client) :
    (s.announce t).outstanding = s.outstanding + 1 ∧ ((s.announce t).Stopping ↔ s.Stopping) :=
  effect_of_update (t := t) 0 1 rfl rfl rfl
    (by simp [announce, onJobArrival, Thread.load, Thread.announced, Thread.unaccounted, hphase]
        omega)

/-- A post made inside the executor brings one job. -/
theorem effect_enqueuePrivate (s : State T) (t : T) :
    (s.enqueuePrivate t).outstanding = s.outstanding + 1 ∧
      ((s.enqueuePrivate t).Stopping ↔ s.Stopping) :=
  effect_of_update (t := t) 0 1 rfl rfl rfl
    (by simp [enqueuePrivate, Thread.load, Thread.announced, Thread.unaccounted]
        omega)

/-- The locked part of a post ends and brings no job. -/
theorem effect_push {op : OpId} (hphase : (s.threads t).phase = .posting op) :
    (s.push t op).outstanding = s.outstanding ∧ ((s.push t op).Stopping ↔ s.Stopping) :=
  effect_of_update (t := t) 0 0 rfl rfl rfl
    (by simp [push, Thread.load, Thread.announced, Thread.unaccounted, hphase]
        omega)

/-- Moving the private queue ends and brings no job. -/
theorem effect_relock {mode : RunMode} (hphase : (s.threads t).phase = .accounted mode) :
    (s.relock t mode).outstanding = s.outstanding ∧ ((s.relock t mode).Stopping ↔ s.Stopping) :=
  effect_of_update (t := t) 0 0 rfl rfl rfl
    (by simp [relock, Thread.load, Thread.announced, Thread.unaccounted, hphase])

/-- The fold ends exactly one job and, since the counter was positive, stops nothing. -/
theorem effect_account (h : s.Inv) (hb : s.outstanding + 1 < 2 ^ 32) {mode : RunMode} {op : OpId}
    (hphase : (s.threads t).phase = .running mode op) :
    (s.account t mode).outstanding + 1 = s.outstanding ∧
      ((s.account t mode).Stopping ↔ s.Stopping) := by
  rw [(h.account_eq hb hphase).1]
  exact effect_of_update (t := t) 1 0 rfl rfl rfl
    (by simp [Thread.load, Thread.announced, Thread.unaccounted, hphase]; omega)

/-- Destroying a work guard ends exactly one job and stops nothing. -/
theorem effect_destroyGuard (h : s.Inv) (hb : s.outstanding + 1 < 2 ^ 32)
    (hs' : s.destroyGuard t = some s') :
    s'.outstanding + 1 = s.outstanding ∧ (s'.Stopping ↔ s.Stopping) := by
  unfold State.destroyGuard at hs'
  split at hs'
  · cases hs'
  · rename_i hg
    have hpos := h.jobCount_pos_of_workGuards hg
    have hc := h.counters_le t
    obtain rfl := Option.some.inj hs'
    have heq := onJobCompletion_eq (s := { s with workGuards := s.workGuards - 1 }) hpos
      (by simp only; omega) t
    -- the value before the decrement was positive, so `Stop()` is not called
    rw [heq]
    refine ⟨?_, Iff.rfl⟩
    simp only [outstanding]
    omega

/-- Every step from a state that satisfies the accounting invariant ends a job if it is a
completion, brings one if it is an arrival, drops those of a thread that leaves, and starts to stop
the executor only if it enters an executor without jobs. -/
theorem step_effect (h : s.Inv) (hC : s.NoUserStop a) (hs' : s.step a = some s') :
    s'.outstanding + (a.completes.toNat + s.dropped a) = s.outstanding + (a.brings s).toNat ∧
      (¬ s.Stopping → (s'.Stopping ↔ s.EntersIdle a)) := by
  have hb : s.outstanding + 1 < 2 ^ 32 := hC.2
  -- a step that keeps `Stopping` cannot start to stop the executor
  have keep {ended brought : ℕ} {P : Prop} (hP : ¬ P)
      (heff : s'.outstanding + ended = s.outstanding + brought ∧ (s'.Stopping ↔ s.Stopping)) :
      s'.outstanding + ended = s.outstanding + brought ∧
        (¬ s.Stopping → (s'.Stopping ↔ P)) :=
    ⟨heff.1, fun hns => iff_of_false (fun hst => hns (heff.2.mp hst)) hP⟩
  cases transition_of_step hs' with
  | finishStop hpending =>
    exact ⟨outstanding_update 0 0 rfl rfl, fun hns => absurd (.inr ⟨_, hpending⟩) hns⟩
  | enter hpending hphase => exact effect_enter h hphase hpending _
  | processNext hphase =>
    simp only [Action.completes, Bool.toNat_false, Nat.zero_add]
    exact keep id (effect_processNext hphase)
  | wake hphase hwake => exact keep id (effect_wake hphase hwake)
  | postOutside hphase => exact keep id (effect_announce hphase)
  | postInside _ | postDestroying _ => exact keep id (effect_enqueuePrivate s _)
  | @dispatchOutside t hphase =>
    have hbrings : Action.brings s (.dispatch t) = true := decide_eq_true hphase
    rw [hbrings]
    exact keep id (effect_announce hphase)
  | @dispatchInside t hphase =>
    have hbrings : Action.brings s (.dispatch t) = false := decide_eq_false hphase
    rw [hbrings]
    exact keep id ⟨rfl, Iff.rfl⟩
  | push hphase => exact keep id (effect_push hphase)
  | account hphase => exact keep id (effect_account h hb hphase)
  | relock hphase => exact keep id (effect_relock hphase)
  | returnProcessed hphase =>
    simp only [Action.completes, Bool.toNat_false, Nat.zero_add]
    exact keep id (effect_returnProcessed hphase)
  | createGuard => exact keep id ⟨rfl, Iff.rfl⟩
  | destroyGuard hdestroy => exact keep id (effect_destroyGuard h hb hdestroy)
  | stop => exact hC.1.elim
  | restart =>
    -- clearing the flag may end `Stopping`, but does not bring it about
    refine ⟨rfl, fun hns => iff_of_false (fun hst => hns ?_) id⟩
    rcases hst with hreq | hpending
    · cases hreq
    · exact .inr hpending

/-- A step calls `OnJobCompletion()` only on a positive counter. -/
theorem Inv.jobCount_pos_of_completion (h : s.Inv) (hs' : s.step a = some s')
    (hcall : s.CallsOnJobCompletion a) : 0 < s.jobCount := by
  cases transition_of_step hs' with
  | account hphase =>
    exact h.jobCount_pos_of_running
      (by simp [Thread.load, Thread.announced, Thread.unaccounted, hphase]) hcall
  | destroyGuard hdestroy =>
    refine h.jobCount_pos_of_workGuards fun hzero => ?_
    simp [State.destroyGuard, hzero] at hdestroy
  | _ => exact hcall.elim

omit [Fintype T] [DecidableEq T] in
/-- A step that ends a job neither brings nor drops one. -/
theorem of_completes (h : a.completes = true) : a.brings s = false ∧ s.dropped a = 0 := by
  cases a with
  | account _ | destroyGuard _ => exact ⟨rfl, rfl⟩
  | _ => cases h

omit [Fintype T] [DecidableEq T] in
/-- A step that drops jobs brings none. -/
theorem of_dropped (h : 0 < s.dropped a) : a.brings s = false := by
  cases a with
  | processNext _ | returnProcessed _ => rfl
  | _ => exact absurd h (lt_irrefl 0)

omit [Fintype T] [DecidableEq T] in
/-- Entering an executor without jobs ends and drops none. -/
theorem of_entersIdle (h : s.EntersIdle a) : a.completes = false ∧ s.dropped a = 0 := by
  cases a with
  | enter _ _ => exact ⟨rfl, rfl⟩
  | _ => exact h.elim

omit [DecidableEq T] in
/-- The jobs are depleted in the steps that end or drop the last ones. -/
theorem depleted_iff
    (hout : s'.outstanding + (a.completes.toNat + s.dropped a) =
      s.outstanding + (a.brings s).toNat) :
    (0 < s.outstanding ∧ s'.outstanding = 0) ↔ s.CompletesLast a := by
  constructor
  · rintro ⟨hpos, hzero⟩
    cases hc : a.completes with
    | true =>
      obtain ⟨hbrings, hdropped⟩ := of_completes (s := s) hc
      rw [hc, hbrings, hdropped, Bool.toNat_true, Bool.toNat_false] at hout
      exact .inl ⟨hc, by omega⟩
    | false =>
      rw [hc, Bool.toNat_false] at hout
      have hdropped : 0 < s.dropped a := by omega
      rw [of_dropped hdropped, Bool.toNat_false] at hout
      exact .inr ⟨hdropped, by omega⟩
  · rintro (⟨hc, hone⟩ | ⟨hdropped, hall⟩)
    · obtain ⟨hbrings, hdropped⟩ := of_completes (s := s) hc
      rw [hc, hbrings, hdropped, Bool.toNat_true, Bool.toNat_false] at hout
      omega
    · rw [of_dropped hdropped, Bool.toNat_false] at hout
      omega

/-- The step property holds exactly of the steps that neither end the last outstanding job nor enter
an executor without jobs. -/
theorem Inv.stopsOnDepletion_iff (h : s.Inv) (hC : s.NoUserStop a) (hs' : s.step a = some s') :
    s.StopsOnDepletion a s' ↔ s.Stopping ∨ ¬ (s.CompletesLast a ∨ s.EntersIdle a) := by
  obtain ⟨hout, hstop⟩ := step_effect h hC hs'
  -- nothing is asked of a step taken while the executor is stopping
  by_cases hs : s.Stopping
  · exact iff_of_true (fun hns => absurd hs hns) (.inl hs)
  specialize hstop hs
  have hboth : ¬ (s.CompletesLast a ∧ s.EntersIdle a) := by
    rintro ⟨hlast, hidle⟩
    obtain ⟨hc, hdropped⟩ := of_entersIdle hidle
    rcases hlast with ⟨hc', -⟩ | ⟨hpos, -⟩
    · rw [hc] at hc'
      cases hc'
    · omega
  rw [StopsOnDepletion, hstop, depleted_iff hout]
  constructor
  · intro hprop
    refine .inr ?_
    rintro (hlast | hidle)
    · -- the last job ends in this step, but `OnJobCompletion()` does not call `Stop()`
      exact hboth ⟨hlast, (hprop hs).mpr hlast⟩
    · -- entering an executor without jobs stops it, but ends no job
      exact hboth ⟨(hprop hs).mp hidle, hidle⟩
  · rintro (hst | hnot)
    · exact absurd hst hs
    · exact fun _ => iff_of_false (fun hidle => hnot (.inr hidle)) fun hlast => hnot (.inl hlast)

end State

open State in
/-- Stopping on depletion. Take any run in which the user does not call `Stop()` and the jobs fit
the 32-bit counter. The executor stops exactly in the steps in which its jobs are depleted if and
only if no step of the run, taken while the executor is not stopping, ends the last outstanding job,
leaves with the last ones in a private queue, or enters `Run()` without jobs; and no step decrements
`job_count_` when it is zero. -/
theorem stops_on_depletion_iff {T : Type} [Fintype T] [DecidableEq T] {as : List (Action T)}
    (hrun : ((machine T).run NoUserStop {} as).isSome) :
    ((machine T).Along StopsOnDepletion {} as ↔
      (machine T).Along (fun s a _ => s.Stopping ∨ ¬ (s.CompletesLast a ∨ s.EntersIdle a)) {} as) ∧
    (machine T).Along (fun s a _ => s.CallsOnJobCompletion a → 0 < s.jobCount) {} as := by
  have hinv {s : State T} (hs : (machine T).ReachableIn NoUserStop s) : s.Inv :=
    Inv.of_reachable (hs.mono fun _ _ hC => hC.2)
  have hinit : (machine T).ReachableIn NoUserStop {} := .init rfl
  exact ⟨Machine.along_iff_of_step hinit hrun fun s a s' hs hC hs' =>
      (hinv hs).stopsOnDepletion_iff hC hs',
    Machine.along_of_step hinit hrun fun s a s' hs _ hs' =>
      (hinv hs).jobCount_pos_of_completion hs'⟩

open State in
/-- A worker that holds a work guard and begins a job: the executor still has both jobs and does not
stop. -/
theorem stops_on_depletion_iff_guarded_worker :
    ((machine (Fin 1)).run NoUserStop {}
      [.createGuard 0, .post 0, .push 0, .enter 0 .run, .processNext 0, .account 0]).isSome ∧
    (machine (Fin 1)).Along (fun s a _ => s.CallsOnJobCompletion a → 0 < s.jobCount) {}
      [.createGuard 0, .post 0, .push 0, .enter 0 .run, .processNext 0, .account 0] :=
  ⟨by decide, (stops_on_depletion_iff (by decide)).2⟩

open State in
/-- One posted job and one worker: when the operation returns no job is outstanding any more, and
the executor does not stop. -/
theorem stops_on_depletion_missed :
    ∃ as : List (Action (Fin 1)), ((machine (Fin 1)).run NoUserStop {} as).isSome ∧
      ¬ (machine (Fin 1)).Along StopsOnDepletion {} as := by
  refine ⟨[.post 0, .push 0, .enter 0 .run, .processNext 0, .account 0], by decide, ?_⟩
  intro h
  obtain ⟨-, h⟩ := h _ rfl
  obtain ⟨-, h⟩ := h _ rfl
  obtain ⟨-, h⟩ := h _ rfl
  obtain ⟨-, h⟩ := h _ rfl
  obtain ⟨h, -⟩ := h _ rfl
  exact absurd ((h (by decide)).mpr (by decide)) (by decide)

end Asrt.Executor
