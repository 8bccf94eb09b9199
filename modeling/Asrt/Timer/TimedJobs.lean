import Asrt.Timer.Clients

/-!
# The registry of timed jobs

`periodic_job_ids_` holds the ids by which timed jobs can be cancelled. `StartTimedTaskAsync()`
enters an id after it has added the timer to the queue, `CancelTimedJob()` removes it, and so does
the callback of a one-shot job when its task has returned. The last two do not take the executor's
mutex, and only `CancelTimedJob()` looks whether the id is there. An id is the tag of a timer, so it
is used again when the timer was dequeued.

The ghost state numbers the jobs and remembers which of them were started and have neither fired nor
been cancelled. A one-shot job has fired when its callback is done.

## Main results

- `job_ids_iff`: the registry holds exactly the ids of these jobs in the runs in which every removal
  finds its job among them.
-/

namespace Asrt.Timer.TimedJobs

open Clients (TimedTaskType)

/-- The handlers of timers: that of a waitable timer, and those that `MakeOneShotOperation()` and
`MakePeriodicOperation()` make of the task of a job. -/
inductive Callback
  | waitable
  | task (job : ℕ) (type : TimedTaskType)
deriving DecidableEq, Repr

/-- A call of `HandleOneExpiry()` that has released the mutex. -/
structure Expiry where
  tag : TimerTag
  /-- The call was made by `HandleExpiry()`, not by `Enqueue()` of a zero-expiry timer. -/
  fromLoop : Bool
  /-- `prev_expiry` -/
  prevExpiry : ℕ := 0
  /-- The callback that was invoked, once it was. -/
  callback : Option Callback := none
  /-- The callback of a one-shot job has called `RemoveTimedTaskAsync()`. -/
  removed : Bool := false
deriving DecidableEq, Repr

/-- The callback of the expiry may return: that of a one-shot job removes the job before. -/
def Expiry.mayReturn (e : Expiry) : Bool :=
  match e.callback with
  | some (.task _ .kOnce) => e.removed
  | some _ => true
  | none => false

/-- A call of `StartTimedTaskAsync()` that has reserved its timer. -/
structure Starting where
  /-- Ghost: the number of the job. -/
  job : ℕ
  tag : TimerTag
  type : TimedTaskType
  period : ℕ
  /-- `AddTimer()` has succeeded. -/
  added : Bool := false
deriving DecidableEq, Repr

/-- Ghost: a job with its id. -/
structure Job where
  number : ℕ
  id : TimerTag
deriving DecidableEq, Repr

/-- The timer queue with its clients, and the registry. -/
structure State where
  queue : TimerQueue Callback := {}
  /-- `periodic_job_ids_` -/
  periodicJobIds : List TimerTag := []
  /-- The post that holds the executor's mutex. -/
  starting : Option Starting := none
  /-- The calls of `CancelTimedJob()` that have found their id valid. -/
  cancelling : List TimerTag := []
  /-- The tags of the waitable timers. -/
  waitables : List TimerTag := []
  expiries : List Expiry := []
  /-- The loop of a `HandleExpiry()` holds the queue's mutex. -/
  looping : Bool := false
  /-- Ghost: the number of jobs so far. -/
  jobs : ℕ := 0
  /-- Ghost: the jobs that were started and have neither fired nor been cancelled. -/
  active : List Job := []
  /-- Ghost: `QuickRemoveOne()` was applied to `end()`. -/
  removedEnd : Bool := false

/-- The steps. `now` is a reading of the clock, `settime` the outcome of `timerfd_settime()` and
`stale` what the front of the empty queue holds. -/
inductive Action
  /-- `PostDeferred()` and `PostPeriodic()` up to `RegisterTimedTask()`. -/
  | post (type : TimedTaskType) (period : ℕ)
  /-- `AddTimer()` of `StartTimedTaskAsync()`. -/
  | add (now : ℕ) (settime : Bool)
  /-- `StartTimedTaskAsync()` enters the id. -/
  | push
  /-- `CancelTimedJob()` checks the id. -/
  | check (task : TimerTag)
  /-- The call of `CancelTimedJob()` at a position goes on with `RemoveTimedTaskAsync()`. -/
  | cancel (i : ℕ) (settime : Bool) (stale : TimerTag)
  /-- A timer operation enters `HandleExpiry()`. -/
  | operation
  /-- The loop of `HandleExpiry()` starts to handle the next timer, or ends. -/
  | loop (now : ℕ) (settime : Bool)
  /-- The expiry at a position invokes its callback. -/
  | call (i now : ℕ)
  /-- The callback of a one-shot job calls `RemoveTimedTaskAsync()` after the task. -/
  | remove (i : ℕ) (settime : Bool) (stale : TimerTag)
  /-- The callback of the expiry at a position returns, and `HandleOneExpiry()` ends. -/
  | finish (i : ℕ)
  /-- The constructor of a waitable timer. -/
  | construct
  /-- `Enqueue()` of the waitable timer at a position. -/
  | wait (i expiry interval : ℕ) (settime : Bool)
  /-- The destructor of a waitable timer. -/
  | destroy (i : ℕ) (settime : Bool) (stale : TimerTag)
deriving DecidableEq, Repr

/-- `QuickRemoveOne()`. It asserts that the value is in the vector; without assertions it drops the
last element if it is not. -/
def quickRemoveOne (container : List TimerTag) (value : TimerTag) : List TimerTag :=
  if value ∈ container then ToMathlib.swapRemove (· = value) container else container.dropLast

namespace State

/-- `IsPeriodicJobValid()` -/
def isPeriodicJobValid (σ : State) (task : TimerTag) : Bool := task ∈ σ.periodicJobIds

/-- `RemoveTimedTaskAsync()` -/
def removeTimedTaskAsync (σ : State) (task : TimerTag) (settime : Bool) (stale : TimerTag) :
    State :=
  { σ with
    periodicJobIds := quickRemoveOne σ.periodicJobIds task
    removedEnd := σ.removedEnd || !σ.isPeriodicJobValid task
    queue := (σ.queue.dequeue task settime stale).1 }

/-- `HandleOneExpiry()` up to the release of the mutex. -/
def beginExpiry (σ : State) (tag : TimerTag) (fromLoop : Bool) : State :=
  { σ with
    queue := σ.queue.beginOneExpiry tag
    expiries := { tag, fromLoop } :: σ.expiries }

/-- `RegisterTimedTask()` -/
def post (σ : State) (type : TimedTaskType) (period : ℕ) : State :=
  match σ.queue.reserve (.task σ.jobs type) with
  | (queue, .ok tag) =>
    { σ with queue, jobs := σ.jobs + 1, starting := some { job := σ.jobs, tag, type, period } }
  | (queue, .error _) => { σ with queue }

/-- `AddTimer()` of `StartTimedTaskAsync()`. If it fails the post is over. -/
def add (σ : State) (task : Starting) (now : ℕ) (settime : Bool) : State :=
  let interval := if task.type = .kRecurring then task.period else 0
  match σ.queue.doAddTimer task.tag (now + task.period) interval settime with
  | (queue, .ok ()) => { σ with queue, starting := some { task with added := true } }
  -- the timer is queued all the same, and its tag is lost
  | (queue, .error _) => { σ with queue, starting := none }

/-- `StartTimedTaskAsync()` enters the id, and the job is started. -/
def push (σ : State) (task : Starting) : State :=
  { σ with
    periodicJobIds := σ.periodicJobIds ++ [task.tag]
    starting := none
    active := σ.active ++ [⟨task.job, task.tag⟩] }

/-- `CancelTimedJob()` after its check, for the call at position `i`: the job with the id is
cancelled. -/
def cancel (σ : State) (i : ℕ) (task : TimerTag) (settime : Bool) (stale : TimerTag) : State :=
  { σ.removeTimedTaskAsync task settime stale with
    cancelling := σ.cancelling.eraseIdx i
    active := σ.active.eraseP (·.id = task) }

/-- The end of the callback of a one-shot job, for the expiry `e` at position `i`: the job has
fired. -/
def remove (σ : State) (i : ℕ) (e : Expiry) (job : ℕ) (settime : Bool) (stale : TimerTag) : State :=
  { σ.removeTimedTaskAsync e.tag settime stale with
    expiries := σ.expiries.set i { e with removed := true }
    active := σ.active.erase ⟨job, e.tag⟩ }

/-- One turn of the loop of `HandleExpiry()`. -/
def loop (σ : State) (now : ℕ) (settime : Bool) : State :=
  match σ.queue.nextExpired now with
  | some tag => { σ with looping := false }.beginExpiry tag true
  | none => { σ with looping := false, queue := σ.queue.primeTimerFd settime }

/-- `Enqueue()` of a waitable timer: a zero-expiry timer is handled at once. -/
def wait (σ : State) (tag : TimerTag) (expiry interval : ℕ) (settime : Bool) : State :=
  if expiry = 0 then σ.beginExpiry tag false
  else { σ with queue := (σ.queue.doAddTimer tag expiry interval settime).1 }

/-- The step labelled by an action, if it is enabled. Steps that need the queue's mutex wait for the
loop of `HandleExpiry()`. A waitable timer that cannot be registered ends the program, and so does
the call of an empty handler. A post holds the executor's mutex. -/
def step (σ : State) : Action → Option State
  | .post type period =>
    if σ.looping ∨ σ.starting.isSome then none else some (σ.post type period)
  | .add now settime =>
    match σ.starting with
    | some task =>
      -- the clock has been running for a while
      if !σ.looping ∧ !task.added ∧ now ≠ 0 then some (σ.add task now settime) else none
    | none => none
  | .push =>
    match σ.starting with
    | some task => if task.added then some (σ.push task) else none
    | none => none
  | .check task =>
    -- no mutex is taken, so the id may be removed by others before the call goes on
    if σ.isPeriodicJobValid task then some { σ with cancelling := σ.cancelling ++ [task] }
    else some σ
  | .cancel i settime stale =>
    match σ.cancelling[i]? with
    | some task => if !σ.looping then some (σ.cancel i task settime stale) else none
    | none => none
  | .operation => if σ.looping then none else some { σ with looping := true }
  | .loop now settime => if σ.looping then some (σ.loop now settime) else none
  | .call i now =>
    match σ.expiries[i]? with
    | some e =>
      if e.callback.isNone ∧ (σ.queue.timers e.tag).handler.isSome then
        let called := { e with prevExpiry := now, callback := (σ.queue.timers e.tag).handler }
        some { σ with expiries := σ.expiries.set i called }
      else none
    | none => none
  | .remove i settime stale =>
    match σ.expiries[i]? with
    | some e =>
      match e.callback with
      | some (.task job .kOnce) =>
        -- the id is not checked here
        if !σ.looping ∧ !e.removed then some (σ.remove i e job settime stale) else none
      | _ => none
    | none => none
  | .finish i =>
    match σ.expiries[i]? with
    | some e =>
      if !σ.looping ∧ e.mayReturn then
        some { σ with
          queue := σ.queue.endOneExpiry e.tag e.prevExpiry
          expiries := σ.expiries.eraseIdx i
          looping := e.fromLoop }
      else none
    | none => none
  | .construct =>
    if σ.looping then none
    else
      match σ.queue.reserve .waitable with
      | (queue, .ok tag) => some { σ with queue, waitables := σ.waitables ++ [tag] }
      | (_, .error _) => none
  | .wait i expiry interval settime =>
    match σ.waitables[i]? with
    | some tag => if !σ.looping then some (σ.wait tag expiry interval settime) else none
    | none => none
  | .destroy i settime stale =>
    match σ.waitables[i]? with
    | some tag =>
      if !σ.looping then
        some { σ with
          waitables := σ.waitables.eraseIdx i
          queue := (σ.queue.dequeue tag settime stale).1 }
      else none
    | none => none

/-- The registry holds the ids of the jobs that were started and have neither fired nor been
cancelled, each once, and nothing was removed that was not there. -/
structure IdsKept (σ : State) : Prop where
  ids : σ.periodicJobIds.Perm (σ.active.map (·.id))
  once : σ.periodicJobIds.Nodup
  present : σ.removedEnd = false

/-- The condition on a step. `CancelTimedJob()` finds the id still valid when it removes it. At the
end of its callback, a one-shot job was started and has neither fired before nor been cancelled. -/
def Finds (σ : State) : Action → Prop
  | .cancel i _ _ => ∀ task ∈ σ.cancelling[i]?, σ.isPeriodicJobValid task
  | .remove i _ _ =>
    ∀ e ∈ σ.expiries[i]?, ∀ job, e.callback = some (.task job .kOnce) →
      ⟨job, e.tag⟩ ∈ σ.active
  | .post _ _ | .add _ _ | .push | .check _ | .operation | .loop _ _ | .call _ _ | .finish _ |
    .construct | .wait _ _ _ _ | .destroy _ _ _ => True

end State

/-- The registry as a machine. -/
def machine : ToMathlib.Machine State Action where
  init σ := σ = {}
  step := State.step

/-! ## The invariant -/

namespace State

variable {σ σ' : State}

/-- The tags that the clients hold. -/
def held (σ : State) : List TimerTag :=
  σ.starting.toList.map (·.tag) ++ (σ.periodicJobIds ++ σ.waitables)

/-- The invariant: moreover the tags that the clients hold and the recycled ones are distinct, and
`Reserve()` has handed them out. -/
structure Inv (σ : State) : Prop extends σ.IdsKept where
  distinct : (σ.held ++ σ.queue.timerTagRecycleBin).Nodup
  below : ∀ tag ∈ σ.held ++ σ.queue.timerTagRecycleBin, tag < σ.queue.tagEnd

/-- Giving up tags keeps the invariant. -/
theorem Inv.of_subperm (h : σ.Inv) (hids : σ'.IdsKept)
    (hheld : (σ'.held ++ σ'.queue.timerTagRecycleBin).Subperm
      (σ.held ++ σ.queue.timerTagRecycleBin))
    (hend : σ'.queue.tagEnd = σ.queue.tagEnd) : σ'.Inv where
  toIdsKept := hids
  distinct := by
    obtain ⟨kept, hperm, hsublist⟩ := hheld
    exact hperm.nodup_iff.mp (h.distinct.sublist hsublist)
  below tag htag := by
    rw [hend]
    exact h.below tag (hheld.subset htag)

/-- What concerns neither the registry nor the tags keeps the invariant. -/
theorem Inv.frame (h : σ.Inv) {queue : TimerQueue Callback}
    (htags : queue.timerTagRecycleBin = σ.queue.timerTagRecycleBin ∧
      queue.tagEnd = σ.queue.tagEnd)
    (cancelling : List TimerTag) (expiries : List Expiry) (looping : Bool) :
    { σ with queue, cancelling, expiries, looping }.Inv := by
  refine h.of_subperm ⟨h.ids, h.once, h.present⟩ ?_ htags.2
  rw [htags.1]
  exact List.Subperm.refl _

/-- `HandleOneExpiry()` concerns neither. -/
theorem Inv.beginExpiry (h : σ.Inv) (tag : TimerTag) (fromLoop : Bool) :
    (σ.beginExpiry tag fromLoop).Inv := by
  have htags : (σ.queue.beginOneExpiry tag).timerTagRecycleBin = σ.queue.timerTagRecycleBin ∧
      (σ.queue.beginOneExpiry tag).tagEnd = σ.queue.tagEnd := ⟨rfl, rfl⟩
  exact h.frame htags _ _ _

/-- `Reserve()` hands out a tag that nobody holds. -/
theorem Inv.reserve (h : σ.Inv) {callback : Callback} {queue : TimerQueue Callback}
    {tag : TimerTag} (hreserve : σ.queue.reserve callback = (queue, .ok tag))
    (hqueue : σ'.queue = queue) (hheld : σ'.held.Perm (tag :: σ.held)) (hids : σ'.IdsKept) :
    σ'.Inv := by
  have hdistinct := h.distinct
  have hbelow := h.below
  rcases σ.queue.reserve_cases callback with ⟨tag', rest, hbin, heq⟩ | ⟨hbin, heq⟩ | ⟨-, heq⟩
  · -- a recycled tag
    obtain ⟨rfl, ⟨⟩⟩ := Prod.mk.inj (heq.symm.trans hreserve)
    have hmove : (σ'.held ++ rest).Perm (σ.held ++ σ.queue.timerTagRecycleBin) := by
      rw [hbin]
      exact (hheld.append_right rest).trans List.perm_middle.symm
    refine h.of_subperm hids ?_ ?_
    · rw [hqueue]
      exact hmove.subperm
    · rw [hqueue]
      rfl
  · -- a tag that was never used
    obtain ⟨rfl, ⟨⟩⟩ := Prod.mk.inj (heq.symm.trans hreserve)
    have hperm : (σ'.held ++ σ'.queue.timerTagRecycleBin).Perm (σ.queue.tagEnd :: σ.held) := by
      rw [hqueue]
      simpa [TimerQueue.setTimer, hbin] using hheld
    rw [hbin, List.append_nil] at hdistinct hbelow
    refine ⟨hids, ?_, ?_⟩
    · refine hperm.nodup_iff.mpr (List.nodup_cons.mpr ⟨fun hmem => ?_, hdistinct⟩)
      exact Nat.lt_irrefl _ (hbelow _ hmem)
    · intro t ht
      rw [hqueue]
      rcases List.mem_cons.mp (hperm.subset ht) with rfl | hold
      · exact Nat.lt_succ_self _
      · exact Nat.lt_succ_of_lt (hbelow t hold)
  · cases (Prod.mk.inj (heq.symm.trans hreserve)).2

/-- Dequeuing a timer that a client gives up keeps the invariant. -/
theorem Inv.dequeue (h : σ.Inv) {task : TimerTag} {settime : Bool} {stale : TimerTag}
    (hqueue : σ'.queue = (σ.queue.dequeue task settime stale).1)
    (hheld : (task :: σ'.held).Perm σ.held) (hids : σ'.IdsKept) : σ'.Inv := by
  obtain ⟨hbin, hend⟩ := σ.queue.dequeue_tags task settime stale
  refine h.of_subperm hids ?_ (by rw [hqueue, hend])
  have hall : (task :: (σ'.held ++ σ.queue.timerTagRecycleBin)).Perm
      (σ.held ++ σ.queue.timerTagRecycleBin) := hheld.append_right _
  rw [hqueue]
  rcases hbin with hbin | hbin
  · rw [hbin]
    exact (List.sublist_cons_self _ _).subperm.trans hall.subperm
  · rw [hbin, ← List.append_assoc]
    exact ((List.perm_append_singleton _ _).trans hall).subperm

/-! ## Removals -/

/-- `QuickRemoveOne()` of a value that is there. -/
theorem quickRemoveOne_perm {container : List TimerTag} {value : TimerTag}
    (h : value ∈ container) : (quickRemoveOne container value).Perm (container.erase value) := by
  rw [quickRemoveOne, if_pos h, List.erase_eq_eraseP']
  exact ToMathlib.swapRemove_perm _ _

/-- Removing the id of an active job keeps the registry, if this job is not active any more. -/
theorem IdsKept.remove (h : σ.IdsKept) {job : Job} (hjob : job ∈ σ.active)
    (hids : σ'.periodicJobIds = quickRemoveOne σ.periodicJobIds job.id)
    (hactive : (job :: σ'.active).Perm σ.active)
    (hend : σ'.removedEnd = (σ.removedEnd || !σ.isPeriodicJobValid job.id)) : σ'.IdsKept := by
  have hmem : job.id ∈ σ.periodicJobIds := h.ids.symm.subset (List.mem_map_of_mem hjob)
  have hremoved := quickRemoveOne_perm hmem
  have hleft : (σ.periodicJobIds.erase job.id).Perm (σ'.active.map (·.id)) := by
    have hcons : (job.id :: σ'.active.map (·.id)).Perm σ.periodicJobIds := by
      have hmap := hactive.map Job.id
      exact hmap.trans h.ids.symm
    have herase := (hcons.erase job.id).symm
    rwa [List.erase_cons_head] at herase
  refine ⟨?_, ?_, ?_⟩
  · rw [hids]
    exact hremoved.trans hleft
  · rw [hids]
    exact hremoved.nodup_iff.mpr (h.once.erase _)
  · rw [hend, h.present]
    simpa [isPeriodicJobValid] using hmem

/-- Removing an id breaks the registry if the same jobs stay active: the id was not there, or it is
that of another job. -/
theorem IdsKept.not_of_remove (h : σ.IdsKept) {task : TimerTag}
    (hids : σ'.periodicJobIds = quickRemoveOne σ.periodicJobIds task)
    (hactive : σ'.active = σ.active)
    (hend : σ'.removedEnd = (σ.removedEnd || !σ.isPeriodicJobValid task)) : ¬ σ'.IdsKept := by
  intro h'
  by_cases hmem : task ∈ σ.periodicJobIds
  · -- there is one id less than there are active jobs
    have hlength := h'.ids.length_eq
    rw [hids, (quickRemoveOne_perm hmem).length_eq, hactive, ← h.ids.length_eq,
      List.length_erase_of_mem hmem] at hlength
    have hpos := List.length_pos_of_mem hmem
    omega
  · have hpresent := h'.present
    rw [hend] at hpresent
    simp [isPeriodicJobValid, hmem] at hpresent

/-- The tags that are held after a removal. -/
theorem held_removeTimedTaskAsync {task : TimerTag} (hmem : task ∈ σ.periodicJobIds)
    (hids : σ'.periodicJobIds = quickRemoveOne σ.periodicJobIds task)
    (hstarting : σ'.starting = σ.starting) (hwaitables : σ'.waitables = σ.waitables) :
    (task :: σ'.held).Perm σ.held := by
  have hleft : (task :: σ'.periodicJobIds).Perm σ.periodicJobIds := by
    rw [hids]
    exact ((quickRemoveOne_perm hmem).cons task).trans (List.perm_cons_erase hmem).symm
  rw [held, held, hstarting, hwaitables]
  exact List.perm_middle.symm.trans ((hleft.append_right _).append_left _)

/-- `CancelTimedJob()` keeps the registry exactly if it finds the id. -/
theorem Inv.cancel (h : σ.Inv) {i : ℕ} {task : TimerTag} {settime : Bool} {stale : TimerTag} :
    (σ.isPeriodicJobValid task = true → (σ.cancel i task settime stale).Inv) ∧
      (¬ σ.isPeriodicJobValid task = true → ¬ (σ.cancel i task settime stale).IdsKept) := by
  constructor
  · intro hvalid
    have hmem : task ∈ σ.periodicJobIds := by simpa [isPeriodicJobValid] using hvalid
    obtain ⟨job, hjob, rfl⟩ := List.mem_map.mp (h.ids.subset hmem)
    refine h.dequeue rfl (held_removeTimedTaskAsync hmem rfl rfl rfl) ?_
    -- ids are distinct, so this is the job with the id
    obtain ⟨found, before, after, -, hid, hactive, herase⟩ :=
      List.exists_of_eraseP (p := fun other : Job => other.id = job.id) hjob (by simp)
    have hsame : found.id = job.id := by simpa using hid
    have hfound : found ∈ σ.active := by simp [hactive]
    refine h.toIdsKept.remove hfound ?_ ?_ ?_
    · simp [State.cancel, removeTimedTaskAsync, hsame]
    · simp only [State.cancel]
      rw [herase, hactive]
      exact List.perm_middle.symm
    · simp [State.cancel, removeTimedTaskAsync, hsame]
  · intro hvalid h'
    have hpresent := h'.present
    simp [State.cancel, removeTimedTaskAsync, hvalid] at hpresent

/-- The end of the callback of a one-shot job keeps the registry exactly if the job is active. -/
theorem Inv.remove (h : σ.Inv) {i job : ℕ} {e : Expiry} {settime : Bool} {stale : TimerTag} :
    (⟨job, e.tag⟩ ∈ σ.active → (σ.remove i e job settime stale).Inv) ∧
      (⟨job, e.tag⟩ ∉ σ.active → ¬ (σ.remove i e job settime stale).IdsKept) := by
  constructor
  · intro hjob
    -- an active job is registered, so `QuickRemoveOne()` finds it
    have hmem : e.tag ∈ σ.periodicJobIds := h.ids.symm.subset (List.mem_map_of_mem hjob)
    refine h.dequeue rfl (held_removeTimedTaskAsync hmem rfl rfl rfl) ?_
    exact h.toIdsKept.remove hjob rfl (List.perm_cons_erase hjob).symm rfl
  · intro hjob
    exact h.toIdsKept.not_of_remove rfl (List.erase_of_not_mem hjob) rfl

/-! ## The other steps -/

/-- A post keeps the invariant. -/
theorem Inv.post (h : σ.Inv) (hstarting : σ.starting = none) (type : TimedTaskType) (period : ℕ) :
    (σ.post type period).Inv := by
  simp only [State.post]
  split
  · rename_i queue tag hreserve
    refine h.reserve hreserve rfl ?_ ⟨h.ids, h.once, h.present⟩
    simp [held, hstarting]
  · rename_i queue ec hreserve
    -- a refused reservation changes nothing
    have hqueue : queue = σ.queue := by
      rcases σ.queue.reserve_cases (.task σ.jobs type) with ⟨_, _, -, heq⟩ | ⟨-, heq⟩ | ⟨-, heq⟩
      · cases (Prod.mk.inj (heq.symm.trans hreserve)).2
      · cases (Prod.mk.inj (heq.symm.trans hreserve)).2
      · exact (Prod.mk.inj (hreserve.symm.trans heq)).1
    subst hqueue
    exact h

/-- `AddTimer()` keeps the invariant. If it fails, nobody holds the tag any more. -/
theorem Inv.add (h : σ.Inv) {task : Starting} (hstarting : σ.starting = some task) (now : ℕ)
    (settime : Bool) : (σ.add task now settime).Inv := by
  have htags := σ.queue.doAddTimer_tags task.tag (now + task.period)
    (if task.type = .kRecurring then task.period else 0) settime
  simp only [State.add]
  split
  · rename_i queue hadd
    rw [hadd] at htags
    refine h.of_subperm ⟨h.ids, h.once, h.present⟩ ?_ htags.2
    simp only [held, hstarting]
    rw [htags.1]
    exact List.Subperm.refl _
  · rename_i queue ec hadd
    rw [hadd] at htags
    refine h.of_subperm ⟨h.ids, h.once, h.present⟩ ?_ htags.2
    simp only [held, hstarting]
    rw [htags.1]
    exact (((List.nil_sublist _).append_right _).append_right _).subperm

/-- Entering the id keeps the invariant: the post holds the tag, so it is not registered. -/
theorem Inv.push (h : σ.Inv) {task : Starting} (hstarting : σ.starting = some task) :
    (σ.push task).Inv := by
  have hdistinct := h.distinct
  have hnot : task.tag ∉ σ.periodicJobIds := by
    simp only [held, hstarting, Option.toList_some, List.map_cons, List.map_nil,
      List.cons_append] at hdistinct
    intro hmem
    exact (List.nodup_cons.mp hdistinct).1 (by simp [hmem])
  refine h.of_subperm ⟨?_, ?_, h.present⟩ (List.Perm.subperm ?_) rfl
  · simp only [State.push, List.map_append, List.map_cons, List.map_nil]
    exact h.ids.append_right _
  · exact (List.perm_append_singleton _ _).nodup_iff.mpr (List.nodup_cons.mpr ⟨hnot, h.once⟩)
  · simp only [held, State.push, hstarting]
    refine List.Perm.append_right _ ?_
    exact (List.perm_append_singleton _ _).append_right _

/-- A check of an id only notes the answer. -/
theorem Inv.check (h : σ.Inv) {task : TimerTag} (hσ' : σ.step (.check task) = some σ') :
    σ'.Inv := by
  simp only [State.step] at hσ'
  split at hσ'
  · obtain rfl := Option.some.inj hσ'
    exact h.frame ⟨rfl, rfl⟩ _ _ _
  · obtain rfl := Option.some.inj hσ'
    exact h

/-- A turn of the loop begins an expiry, or programs the timerfd. -/
theorem Inv.loop (h : σ.Inv) (now : ℕ) (settime : Bool) : (σ.loop now settime).Inv := by
  simp only [State.loop]
  split
  · exact (h.frame ⟨rfl, rfl⟩ _ _ _).beginExpiry _ _
  · exact h.frame (σ.queue.primeTimerFd_tags settime) _ _ _

theorem Inv.call (h : σ.Inv) {i now : ℕ} (hσ' : σ.step (.call i now) = some σ') : σ'.Inv := by
  simp only [State.step] at hσ'
  split at hσ'
  · obtain ⟨-, ⟨⟩⟩ := Option.ite_none_right_eq_some.mp hσ'
    exact h.frame ⟨rfl, rfl⟩ _ _ _
  · cases hσ'

theorem Inv.finish (h : σ.Inv) {i : ℕ} (hσ' : σ.step (.finish i) = some σ') : σ'.Inv := by
  simp only [State.step] at hσ'
  split at hσ'
  · rename_i e hi
    obtain ⟨-, ⟨⟩⟩ := Option.ite_none_right_eq_some.mp hσ'
    exact h.frame (σ.queue.endOneExpiry_tags e.tag e.prevExpiry) _ _ _
  · cases hσ'

/-- A waitable timer reserves a tag of its own. -/
theorem Inv.construct (h : σ.Inv) (hσ' : σ.step .construct = some σ') : σ'.Inv := by
  obtain ⟨-, hσ'⟩ := Option.ite_none_left_eq_some.mp hσ'
  split at hσ'
  · rename_i queue tag hreserve
    obtain rfl := Option.some.inj hσ'
    refine h.reserve hreserve rfl ?_ ⟨h.ids, h.once, h.present⟩
    simp only [held, ← List.append_assoc]
    exact List.perm_append_singleton _ _
  · cases hσ'

theorem Inv.wait (h : σ.Inv) {i expiry interval : ℕ} {settime : Bool}
    (hσ' : σ.step (.wait i expiry interval settime) = some σ') : σ'.Inv := by
  simp only [State.step] at hσ'
  split at hσ'
  · rename_i tag hi
    obtain ⟨-, ⟨⟩⟩ := Option.ite_none_right_eq_some.mp hσ'
    simp only [State.wait]
    split
    · exact h.beginExpiry _ _
    · exact h.frame (σ.queue.doAddTimer_tags tag expiry interval settime) _ _ _
  · cases hσ'

/-- A waitable timer gives its tag back. -/
theorem Inv.destroy (h : σ.Inv) {i : ℕ} {settime : Bool} {stale : TimerTag}
    (hσ' : σ.step (.destroy i settime stale) = some σ') : σ'.Inv := by
  simp only [State.step] at hσ'
  split at hσ'
  · rename_i tag hi
    obtain ⟨-, ⟨⟩⟩ := Option.ite_none_right_eq_some.mp hσ'
    refine h.dequeue rfl ?_ ⟨h.ids, h.once, h.present⟩
    have hleft := ToMathlib.cons_eraseIdx_perm hi
    simp only [held]
    refine List.perm_middle.symm.trans (List.Perm.append_left _ ?_)
    exact List.perm_middle.symm.trans (hleft.append_left _)
  · cases hσ'

/-! ## All steps -/

/-- What a removal does to the invariant, as a step. -/
theorem Inv.step_cancel (h : σ.Inv) {i : ℕ} {settime : Bool} {stale : TimerTag}
    (hσ' : σ.step (.cancel i settime stale) = some σ') :
    (σ.Finds (.cancel i settime stale) → σ'.Inv) ∧
      (¬ σ.Finds (.cancel i settime stale) → ¬ σ'.IdsKept) := by
  simp only [State.step] at hσ'
  split at hσ'
  · rename_i task hi
    obtain ⟨-, ⟨⟩⟩ := Option.ite_none_right_eq_some.mp hσ'
    have hiff : σ.Finds (.cancel i settime stale) ↔ σ.isPeriodicJobValid task = true := by
      simp [Finds, hi]
    rw [hiff]
    exact h.cancel
  · cases hσ'

theorem Inv.step_remove (h : σ.Inv) {i : ℕ} {settime : Bool} {stale : TimerTag}
    (hσ' : σ.step (.remove i settime stale) = some σ') :
    (σ.Finds (.remove i settime stale) → σ'.Inv) ∧
      (¬ σ.Finds (.remove i settime stale) → ¬ σ'.IdsKept) := by
  simp only [State.step] at hσ'
  split at hσ'
  · rename_i e hi
    split at hσ'
    · rename_i job hcallback
      obtain ⟨-, ⟨⟩⟩ := Option.ite_none_right_eq_some.mp hσ'
      have hiff : σ.Finds (.remove i settime stale) ↔ ⟨job, e.tag⟩ ∈ σ.active := by
        simp [Finds, hi, hcallback]
      rw [hiff]
      exact h.remove
    · cases hσ'
  · cases hσ'

/-- What a step does to the invariant. -/
theorem Inv.step (h : σ.Inv) {a : Action} (hσ' : σ.step a = some σ') :
    (σ.Finds a → σ'.Inv) ∧ (¬ σ.Finds a → ¬ σ'.IdsKept) := by
  -- the steps without a condition
  have hfree (hinv : σ'.Inv) (hfinds : σ.Finds a) :
      (σ.Finds a → σ'.Inv) ∧ (¬ σ.Finds a → ¬ σ'.IdsKept) :=
    ⟨fun _ => hinv, fun hnot => absurd hfinds hnot⟩
  cases a with
  | post type period =>
    obtain ⟨hnot, ⟨⟩⟩ := Option.ite_none_left_eq_some.mp hσ'
    rw [not_or] at hnot
    exact hfree (h.post (by simpa using hnot.2) type period) trivial
  | add now settime =>
    simp only [State.step] at hσ'
    split at hσ'
    · rename_i task hstarting
      obtain ⟨-, ⟨⟩⟩ := Option.ite_none_right_eq_some.mp hσ'
      exact hfree (h.add hstarting now settime) trivial
    · cases hσ'
  | push =>
    simp only [State.step] at hσ'
    split at hσ'
    · rename_i task hstarting
      obtain ⟨-, ⟨⟩⟩ := Option.ite_none_right_eq_some.mp hσ'
      exact hfree (h.push hstarting) trivial
    · cases hσ'
  | check task => exact hfree (h.check hσ') trivial
  | cancel i settime stale => exact h.step_cancel hσ'
  | operation =>
    obtain ⟨-, ⟨⟩⟩ := Option.ite_none_left_eq_some.mp hσ'
    exact hfree (h.frame ⟨rfl, rfl⟩ _ _ _) trivial
  | loop now settime =>
    obtain ⟨-, ⟨⟩⟩ := Option.ite_none_right_eq_some.mp hσ'
    exact hfree (h.loop now settime) trivial
  | call i now => exact hfree (h.call hσ') trivial
  | remove i settime stale => exact h.step_remove hσ'
  | finish i => exact hfree (h.finish hσ') trivial
  | construct => exact hfree (h.construct hσ') trivial
  | wait i expiry interval settime => exact hfree (h.wait hσ') trivial
  | destroy i settime stale => exact hfree (h.destroy hσ') trivial

end State

/-- In every run, the registry holds exactly the ids of the jobs that were started and have neither
fired nor been cancelled, each once, and only ids that are there are removed, exactly if every
removal finds its job. -/
theorem job_ids_iff (l : List Action) :
    machine.Along (fun _ _ σ' => σ'.IdsKept) {} l ↔
      machine.Along (fun σ a _ => σ.Finds a) {} l := by
  refine ToMathlib.Machine.along_iff_of_invariant (I := State.Inv) ?_ ?_ ?_
  · exact ⟨⟨.nil, .nil, rfl⟩, .nil, nofun⟩
  · intro σ a σ' h hσ'
    obtain ⟨hkept, hbroken⟩ := h.step hσ'
    exact ⟨fun hids => by_contra fun hnot => hbroken hnot hids, fun hfinds =>
      (hkept hfinds).toIdsKept⟩
  · intro σ a σ' h hσ' hids
    obtain ⟨hkept, hbroken⟩ := h.step hσ'
    exact hkept (by_contra fun hnot => hbroken hnot hids)

/-- Two deferred jobs are posted, and the first one cancels itself in its callback. When the
callback is done, the id of the second job is removed in place of its own. -/
theorem job_ids_cancelled_in_callback :
    ∃ σ, machine.Reachable σ ∧ σ.active = [⟨1, 1⟩] ∧ σ.periodicJobIds = [] ∧ ¬ σ.IdsKept := by
  have hσ := ToMathlib.Machine.reachableIn_get_run (M := machine) (C := ToMathlib.Machine.Always)
    (s := {})
    (l := [.post .kOnce 10, .add 1 true, .push, .post .kOnce 50, .add 1 true, .push, .operation,
      .loop 11 true, .call 0 11, .check 0, .cancel 0 true 0, .remove 0 true 0]) rfl (by decide)
  refine ⟨_, hσ, by decide, by decide, fun hids => ?_⟩
  exact absurd hids.present (by decide)

end Asrt.Timer.TimedJobs
