import Asrt.Os
import Asrt.ToMathlib.VectorOps

/-!
# The timer queue

`TimerQueue` (`timer/timer_queue.hpp`): the table of timers with its tag allocator, the heap of
queued timers and the timerfd. Every function here runs with the queue's mutex held;
`HandleOneExpiry()` releases it to call the handler and is split there into `beginOneExpiry` and
`endOneExpiry`, and the loop of `HandleExpiry()` is given by its condition `nextExpired` and by what
it does at its end, `primeTimerFd`.

Handlers are values of an arbitrary type; `none` is an empty handler. Times are counted in
nanoseconds from the clock's epoch, as natural numbers: that the sum of a time and an interval may
overflow 64 bits is left out. `settime` is the outcome of `timerfd_settime()`.
-/

namespace Asrt.Timer

/-- `TimerTag`, an index into the table of timers. -/
abbrev TimerTag := ℕ

/-- `kMaxTimerCount`, the size of the table. -/
def kMaxTimerCount : ℕ := 254

/-- `kInvalidTimerTag` -/
def kInvalidTimerTag : TimerTag := 255

/-- `kMaxExpiry` -/
def kMaxExpiry : ℕ := 2 ^ 63 - 1

/-- `TimerQueueEntry` -/
structure TimerQueueEntry (H : Type) where
  /-- `expiry_` -/
  expiry : ℕ := kMaxExpiry
  /-- `interval_`; zero for a one-shot timer. -/
  interval : ℕ := 0
  /-- `handler_` -/
  handler : Option H := none
  /-- `is_valid_` -/
  isValid : Bool := false
  /-- `in_progress_` -/
  inProgress : Bool := false
deriving DecidableEq, Repr

/-- `QueuedTimerEntry` -/
structure QueuedTimerEntry where
  /-- `expiry_` -/
  expiry : ℕ
  /-- `tag_` -/
  tag : TimerTag
deriving DecidableEq, Repr

/-- `TimerQueue` -/
structure TimerQueue (H : Type) where
  /-- `timers_` -/
  timers : TimerTag → TimerQueueEntry H := fun _ => {}
  /-- `timer_tag_recycle_bin_` -/
  timerTagRecycleBin : List TimerTag := []
  /-- `queued_timers_` -/
  queuedTimers : List QueuedTimerEntry := []
  /-- `tag_end_` -/
  tagEnd : ℕ := 0
  /-- `release_handler_memory_` -/
  releaseHandlerMemory : Bool := false
  /-- The time that the timerfd is programmed to; zero if it is disarmed. -/
  timerFd : ℕ := 0

namespace TimerQueue

variable {H : Type}

/-- Replace one entry of the table. -/
def setTimer (q : TimerQueue H) (timer : TimerTag) (entry : TimerQueueEntry H) : TimerQueue H :=
  { q with timers := Function.update q.timers timer entry }

/-! ### Tags -/

/-- `GetNextAvailableTag()`: a recycled tag, or the next tag that was never used. -/
def getNextAvailableTag (q : TimerQueue H) : TimerQueue H × Except ErrorCode TimerTag :=
  if q.tagEnd ≤ kMaxTimerCount then
    match q.timerTagRecycleBin with
    | tag :: rest => ({ q with timerTagRecycleBin := rest }, .ok tag)
    | [] => ({ q with tagEnd := q.tagEnd + 1 }, .ok q.tagEnd)
  else (q, .error .capacityExceeded)

/-- `Reserve()` -/
def reserve (q : TimerQueue H) (handler : H) : TimerQueue H × Except ErrorCode TimerTag :=
  match q.getNextAvailableTag with
  | (q, .ok tag) =>
    (q.setTimer tag { q.timers tag with handler := some handler, inProgress := false }, .ok tag)
  | (q, .error ec) => (q, .error ec)

/-- `RecycleTimerTag()` -/
def recycleTimerTag (q : TimerQueue H) (tag : TimerTag) : TimerQueue H :=
  { q with timerTagRecycleBin := q.timerTagRecycleBin ++ [tag] }

/-! ### The heap and the timerfd -/

/-- `OnQueueUpdate()`: the entry with the smallest expiry bubbles up. -/
def onQueueUpdate (queuedTimers : List QueuedTimerEntry) : List QueuedTimerEntry :=
  ToMathlib.makeHeap (fun timer₁ timer₂ => timer₁.expiry > timer₂.expiry) queuedTimers

/-- The timer is in `queued_timers_`. -/
def isQueued (q : TimerQueue H) (timer : TimerTag) : Bool :=
  q.queuedTimers.any fun entry => entry.tag = timer

/-- `UpdateTimerFd()`; a zero expiry disarms the timerfd. -/
def updateTimerFd (q : TimerQueue H) (expiry : ℕ) (settime : Bool) :
    TimerQueue H × Except ErrorCode Unit :=
  if settime then ({ q with timerFd := expiry }, .ok ()) else (q, .error (.system EINVAL))

/-- `IsNextExpiring(Expiry)` -/
def isNextExpiry (q : TimerQueue H) (expiry : ℕ) : Bool :=
  match q.queuedTimers with
  | [] => true
  | front :: _ => expiry < front.expiry

/-- `IsNextExpiring(TimerTag)`. It reads the front of the queue also when the queue is empty;
`stale` is what it finds there. -/
def isNextTimer (q : TimerQueue H) (timer : TimerTag) (stale : TimerTag) : Bool :=
  match q.queuedTimers with
  | [] => timer = stale
  | front :: _ => timer = front.tag

/-! ### Adding and removing timers -/

/-- `DoAddTimer()` -/
def doAddTimer (q : TimerQueue H) (timer : TimerTag) (expiry interval : ℕ) (settime : Bool) :
    TimerQueue H × Except ErrorCode Unit :=
  let q := q.setTimer timer { q.timers timer with expiry, interval, isValid := true }
  let updated := if q.isNextExpiry expiry then q.updateTimerFd expiry settime else (q, .ok ())
  -- the timer is queued also if the timerfd could not be programmed
  ({ updated.1 with queuedTimers := onQueueUpdate (updated.1.queuedTimers ++ [⟨expiry, timer⟩]) },
    updated.2)

/-- `RemoveTimerFromQueue()` -/
def removeTimerFromQueue (q : TimerQueue H) (timer : TimerTag) :
    TimerQueue H × Except ErrorCode Unit :=
  if q.isQueued timer then
    ({ q with queuedTimers :=
        onQueueUpdate (ToMathlib.swapRemove (fun entry => entry.tag = timer) q.queuedTimers) },
      .ok ())
  else (q, .error .apiError)

/-- The first part of `DoRemoveTimer()`, for a valid timer: its handler is released at once, or by
the expiry that is in progress. -/
def invalidateTimer (q : TimerQueue H) (timer : TimerTag) : TimerQueue H :=
  let timerToRemove := q.timers timer
  if !timerToRemove.inProgress then
    q.setTimer timer { timerToRemove with handler := none, isValid := false }
  else
    { q with releaseHandlerMemory := true }.setTimer timer { timerToRemove with isValid := false }

/-- `DoRemoveTimer()` -/
def doRemoveTimer (q : TimerQueue H) (timer : TimerTag) (settime : Bool) (stale : TimerTag) :
    TimerQueue H × Except ErrorCode Unit :=
  if (q.timers timer).isValid then
    match (q.invalidateTimer timer).removeTimerFromQueue timer with
    | (q, .ok ()) =>
      if q.isNextTimer timer stale then q.updateTimerFd 0 settime else (q, .ok ())
    | (q, .error ec) => (q, .error ec)
  else (q, .ok ())

/-- `Dequeue()`: only a successful removal recycles the tag. -/
def dequeue (q : TimerQueue H) (timer : TimerTag) (settime : Bool) (stale : TimerTag) :
    TimerQueue H × Except ErrorCode Unit :=
  match q.doRemoveTimer timer settime stale with
  | (q, .ok ()) => (q.recycleTimerTag timer, .ok ())
  | (q, .error ec) => (q, .error ec)

/-! ### Expiry -/

/-- The loop of `UpdateTimerExpiry()` over the queue: the first entry of the timer is changed. -/
def updateQueuedExpiry (timer : TimerTag) (expiry : ℕ) :
    List QueuedTimerEntry → List QueuedTimerEntry
  | [] => []
  | entry :: rest =>
    if entry.tag = timer then { entry with expiry } :: rest
    else entry :: updateQueuedExpiry timer expiry rest

/-- `UpdateTimerExpiry()` -/
def updateTimerExpiry (q : TimerQueue H) (timer : TimerTag) (expiry interval : ℕ) : TimerQueue H :=
  let q := q.setTimer timer { q.timers timer with expiry, interval }
  if q.isQueued timer then
    { q with queuedTimers := onQueueUpdate (updateQueuedExpiry timer expiry q.queuedTimers) }
  else q

/-- `HandleOneExpiry()` up to the release of the mutex. -/
def beginOneExpiry (q : TimerQueue H) (tag : TimerTag) : TimerQueue H :=
  q.setTimer tag { q.timers tag with inProgress := true }

/-- `HandleOneExpiry()` after the handler has returned. `prevExpiry` is the time before the handler
was called. A pending release is taken to be the one of this timer. -/
def endOneExpiry (q : TimerQueue H) (tag : TimerTag) (prevExpiry : ℕ) : TimerQueue H :=
  let q := q.setTimer tag { q.timers tag with inProgress := false }
  if q.releaseHandlerMemory then
    { q with releaseHandlerMemory := false }.setTimer tag { q.timers tag with handler := none }
  else if (q.timers tag).interval = 0 then (q.removeTimerFromQueue tag).1
  else q.updateTimerExpiry tag (prevExpiry + (q.timers tag).interval) (q.timers tag).interval

/-- `IsExpired()` at time `now`. -/
def isExpired (q : TimerQueue H) (timer : TimerTag) (now : ℕ) : Bool :=
  timer ≠ kInvalidTimerTag ∧ (q.timers timer).expiry ≤ now

/-- The timer that the loop of `HandleExpiry()` handles next, or `none` if the loop ends. -/
def nextExpired (q : TimerQueue H) (now : ℕ) : Option TimerTag :=
  match q.queuedTimers with
  | [] => none
  | front :: _ => if q.isExpired front.tag now then some front.tag else none

/-- The end of `HandleExpiry()`: the timerfd is programmed to the next expiry, if there is one. -/
def primeTimerFd (q : TimerQueue H) (settime : Bool) : TimerQueue H :=
  match q.queuedTimers with
  | [] => q
  | front :: _ => (q.updateTimerFd front.expiry settime).1

/-! ### What the functions do -/

variable {q : TimerQueue H} {timer : TimerTag}

/-- Reheaping keeps the entries. -/
theorem onQueueUpdate_perm (queuedTimers : List QueuedTimerEntry) :
    (onQueueUpdate queuedTimers).Perm queuedTimers :=
  ToMathlib.makeHeap_perm _ _

/-- The tags of the queued timers. -/
def queuedTags (q : TimerQueue H) : List TimerTag := q.queuedTimers.map (·.tag)

/-- A timer is queued if its tag is. -/
theorem isQueued_iff : q.isQueued timer = true ↔ timer ∈ q.queuedTags := by
  simp [isQueued, queuedTags]

/-- The timer that is handled next is queued. -/
theorem mem_queuedTags_of_nextExpired {now : ℕ} (h : q.nextExpired now = some timer) :
    timer ∈ q.queuedTags := by
  unfold nextExpired at h
  split at h
  · cases h
  · rename_i front rest hq
    obtain ⟨-, ⟨⟩⟩ := Option.ite_none_right_eq_some.mp h
    simp [queuedTags, hq]

/-- Programming the timerfd at the end of the loop changes nothing else. -/
theorem primeTimerFd_spec (q : TimerQueue H) (settime : Bool) :
    ∃ timerFd, q.primeTimerFd settime = { q with timerFd } := by
  unfold primeTimerFd updateTimerFd
  split
  · exact ⟨_, rfl⟩
  · split
    · exact ⟨_, rfl⟩
    · exact ⟨_, rfl⟩

/-- `Reserve()` hands out a recycled tag, a new tag or an error. -/
theorem reserve_cases (q : TimerQueue H) (handler : H) :
    (∃ tag rest, q.timerTagRecycleBin = tag :: rest ∧ q.reserve handler =
      ({ q with timerTagRecycleBin := rest }.setTimer tag
        { q.timers tag with handler := some handler, inProgress := false }, .ok tag)) ∨
    (q.timerTagRecycleBin = [] ∧ q.reserve handler =
      ({ q with tagEnd := q.tagEnd + 1 }.setTimer q.tagEnd
        { q.timers q.tagEnd with handler := some handler, inProgress := false }, .ok q.tagEnd)) ∨
    (kMaxTimerCount < q.tagEnd ∧ q.reserve handler = (q, .error .capacityExceeded)) := by
  by_cases hcap : q.tagEnd ≤ kMaxTimerCount
  · cases hbin : q.timerTagRecycleBin with
    | nil => exact .inr (.inl ⟨rfl, by simp [reserve, getNextAvailableTag, hcap, hbin]⟩)
    | cons tag rest =>
      exact .inl ⟨tag, rest, rfl, by simp [reserve, getNextAvailableTag, hcap, hbin]⟩
  · exact .inr (.inr ⟨Nat.lt_of_not_le hcap, by simp [reserve, getNextAvailableTag, hcap]⟩)

/-- `RemoveTimerFromQueue()` removes one entry of the timer, if there is one. -/
theorem removeTimerFromQueue_spec (q : TimerQueue H) (timer : TimerTag) :
    ∃ queuedTimers,
      (queuedTimers.map (·.tag)).Perm (q.queuedTags.erase timer) ∧
      q.removeTimerFromQueue timer = ({ q with queuedTimers },
        if timer ∈ q.queuedTags then .ok () else .error .apiError) := by
  by_cases hq : timer ∈ q.queuedTags
  · refine ⟨_, ?_, by simp only [removeTimerFromQueue, isQueued_iff, hq, ↓reduceIte]; rfl⟩
    have hperm := (onQueueUpdate_perm _).trans
      (ToMathlib.swapRemove_perm (fun entry => entry.tag = timer) q.queuedTimers)
    -- swapping with the back and reheaping only permute what is left
    have herase : (q.queuedTimers.eraseP fun entry => entry.tag = timer).map (·.tag) =
        q.queuedTags.erase timer := by
      simp only [queuedTags, List.erase_eq_eraseP', List.eraseP_map]
      congr 2
    exact herase ▸ hperm.map _
  · refine ⟨q.queuedTimers, ?_, by simp [removeTimerFromQueue, isQueued_iff, hq]⟩
    rw [List.erase_of_not_mem hq]
    exact .refl _

/-- A call of `UpdateTimerFd()`, if it is made, changes the timerfd only. -/
theorem updateTimerFd_ite_spec (q : TimerQueue H) (called : Bool) (expiry : ℕ) (settime : Bool) :
    ∃ timerFd res, (settime = true → res = .ok ()) ∧
      (if called then q.updateTimerFd expiry settime else (q, .ok ())) =
        ({ q with timerFd }, res) := by
  cases called with
  | false => exact ⟨q.timerFd, .ok (), fun _ => rfl, rfl⟩
  | true =>
    cases settime with
    | false => exact ⟨q.timerFd, .error (.system EINVAL), nofun, rfl⟩
    | true => exact ⟨expiry, .ok (), fun _ => rfl, rfl⟩

/-- `Enqueue()` of a timer that is not due at once adds one entry, whatever it returns. -/
theorem doAddTimer_spec (q : TimerQueue H) (timer : TimerTag) (expiry interval : ℕ)
    (settime : Bool) :
    ∃ queuedTimers timerFd res,
      (queuedTimers.map (·.tag)).Perm (timer :: q.queuedTags) ∧
      (settime = true → res = .ok ()) ∧
      q.doAddTimer timer expiry interval settime =
        ({ q with queuedTimers, timerFd }.setTimer timer
          { q.timers timer with expiry, interval, isValid := true }, res) := by
  have hperm : ((onQueueUpdate (q.queuedTimers ++ [⟨expiry, timer⟩])).map (·.tag)).Perm
      (timer :: q.queuedTags) :=
    ((onQueueUpdate_perm _).trans (List.perm_append_singleton _ _)).map _
  obtain ⟨timerFd, res, hres, heq⟩ := updateTimerFd_ite_spec
    (q.setTimer timer { q.timers timer with expiry, interval, isValid := true })
    ((q.setTimer timer { q.timers timer with expiry, interval, isValid := true }).isNextExpiry
      expiry) expiry settime
  refine ⟨_, timerFd, res, hperm, hres, ?_⟩
  simp only [doAddTimer, heq]
  rfl

/-- `Dequeue()` of a timer that is not valid only recycles its tag. -/
theorem dequeue_of_not_valid (hvalid : (q.timers timer).isValid = false) (settime : Bool)
    (stale : TimerTag) :
    q.dequeue timer settime stale = (q.recycleTimerTag timer, .ok ()) := by
  simp [dequeue, doRemoveTimer, hvalid]

/-- Invalidating a timer concerns its entry and the release flag. -/
theorem invalidateTimer_eq (q : TimerQueue H) (timer : TimerTag) :
    q.invalidateTimer timer =
      { q with
        releaseHandlerMemory := q.releaseHandlerMemory || (q.timers timer).inProgress
        }.setTimer timer { q.timers timer with
          handler := if (q.timers timer).inProgress then (q.timers timer).handler else none
          isValid := false } := by
  cases hprogress : (q.timers timer).inProgress <;>
    simp [invalidateTimer, setTimer, hprogress]

/-- `Dequeue()` of a valid timer makes it invalid and removes one entry of it, whatever it returns;
the tag is recycled if there was an entry and the timerfd could be disarmed. -/
theorem dequeue_of_valid (hvalid : (q.timers timer).isValid = true) (settime : Bool)
    (stale : TimerTag) :
    ∃ queuedTimers timerTagRecycleBin timerFd res,
      (queuedTimers.map (·.tag)).Perm (q.queuedTags.erase timer) ∧
      (timerTagRecycleBin = q.timerTagRecycleBin ∨
        timerTagRecycleBin = q.timerTagRecycleBin ++ [timer]) ∧
      (timer ∈ q.queuedTags → settime = true →
        timerTagRecycleBin = q.timerTagRecycleBin ++ [timer] ∧ res = .ok ()) ∧
      q.dequeue timer settime stale =
        ({ q.invalidateTimer timer with queuedTimers, timerTagRecycleBin, timerFd }, res) := by
  have htags : (q.invalidateTimer timer).queuedTags = q.queuedTags := by
    rw [invalidateTimer_eq]; rfl
  have hbin : (q.invalidateTimer timer).timerTagRecycleBin = q.timerTagRecycleBin := by
    rw [invalidateTimer_eq]; rfl
  obtain ⟨queuedTimers, hperm, hremove⟩ :=
    removeTimerFromQueue_spec (q.invalidateTimer timer) timer
  rw [htags] at hperm hremove
  by_cases hq : timer ∈ q.queuedTags
  · rw [if_pos hq] at hremove
    -- the timerfd is disarmed if the front of the queue was removed
    obtain ⟨timerFd, res, hres, heq⟩ := updateTimerFd_ite_spec
      { q.invalidateTimer timer with queuedTimers }
      (isNextTimer { q.invalidateTimer timer with queuedTimers } timer stale) 0 settime
    have hdo : q.doRemoveTimer timer settime stale =
        ({ q.invalidateTimer timer with queuedTimers, timerFd }, res) := by
      simp only [doRemoveTimer, hvalid, ↓reduceIte, hremove]
      exact heq
    cases res with
    | ok =>
      refine ⟨queuedTimers, _, timerFd, .ok (), hperm, .inr rfl, fun _ _ => ⟨rfl, rfl⟩, ?_⟩
      simp only [dequeue, hdo, recycleTimerTag, hbin]
    | error ec =>
      refine ⟨queuedTimers, _, timerFd, .error ec, hperm, .inl rfl, fun _ hs => ?_, ?_⟩
      · cases hres hs
      · simp only [dequeue, hdo, hbin]
  · -- the error keeps the tag from being recycled, although the timer is invalid now
    rw [if_neg hq] at hremove
    refine ⟨queuedTimers, _, (q.invalidateTimer timer).timerFd, .error .apiError, hperm, .inl rfl,
      fun hmem => absurd hmem hq, ?_⟩
    simp only [dequeue, doRemoveTimer, hvalid, ↓reduceIte, hremove, hbin]

/-- `UpdateTimerExpiry()` keeps the tags of the queue. -/
theorem updateQueuedExpiry_tags (timer : TimerTag) (expiry : ℕ)
    (queuedTimers : List QueuedTimerEntry) :
    (updateQueuedExpiry timer expiry queuedTimers).map (·.tag) = queuedTimers.map (·.tag) := by
  induction queuedTimers with
  | nil => rfl
  | cons entry rest ih =>
    unfold updateQueuedExpiry
    split
    · rfl
    · simp [ih]

/-- `UpdateTimerExpiry()` changes the times of the timer's entries only. -/
theorem updateTimerExpiry_spec (q : TimerQueue H) (timer : TimerTag) (expiry interval : ℕ) :
    ∃ queuedTimers, (queuedTimers.map (·.tag)).Perm q.queuedTags ∧
      q.updateTimerExpiry timer expiry interval = { q with queuedTimers }.setTimer timer
        { q.timers timer with expiry, interval } := by
  simp only [updateTimerExpiry]
  split
  · refine ⟨onQueueUpdate (updateQueuedExpiry timer expiry q.queuedTimers), ?_, rfl⟩
    refine ((onQueueUpdate_perm _).map _).trans ?_
    rw [updateQueuedExpiry_tags]
    exact .refl _
  · exact ⟨q.queuedTimers, .refl _, rfl⟩

/-- The end of an expiry while a release is pending releases the handler of the expired timer. -/
theorem endOneExpiry_of_release (hrelease : q.releaseHandlerMemory = true) (prevExpiry : ℕ) :
    q.endOneExpiry timer prevExpiry =
      { q with releaseHandlerMemory := false }.setTimer timer
        { q.timers timer with inProgress := false, handler := none } := by
  simp [endOneExpiry, setTimer, hrelease]

/-- The end of the expiry of a one-shot timer removes it from the queue. -/
theorem endOneExpiry_of_oneShot (hrelease : q.releaseHandlerMemory = false)
    (honeShot : (q.timers timer).interval = 0) (prevExpiry : ℕ) :
    ∃ queuedTimers, (queuedTimers.map (·.tag)).Perm (q.queuedTags.erase timer) ∧
      q.endOneExpiry timer prevExpiry = { q with queuedTimers }.setTimer timer
        { q.timers timer with inProgress := false } := by
  obtain ⟨queuedTimers, hperm, hremove⟩ := removeTimerFromQueue_spec
    (q.setTimer timer { q.timers timer with inProgress := false }) timer
  refine ⟨queuedTimers, hperm, ?_⟩
  simp only [endOneExpiry, hremove]
  simp [setTimer, hrelease, honeShot]

/-- The end of the expiry of a recurring timer keeps it in the queue. -/
theorem endOneExpiry_of_recurring (hrelease : q.releaseHandlerMemory = false)
    (hrecurring : (q.timers timer).interval ≠ 0) (prevExpiry : ℕ) :
    ∃ queuedTimers expiry, (queuedTimers.map (·.tag)).Perm q.queuedTags ∧
      q.endOneExpiry timer prevExpiry = { q with queuedTimers }.setTimer timer
        { q.timers timer with inProgress := false, expiry } := by
  obtain ⟨queuedTimers, htags, hupdate⟩ := updateTimerExpiry_spec
    (q.setTimer timer { q.timers timer with inProgress := false }) timer
    (prevExpiry + (q.timers timer).interval) (q.timers timer).interval
  refine ⟨queuedTimers, prevExpiry + (q.timers timer).interval, htags, ?_⟩
  have hrelease' : (q.setTimer timer
      { q.timers timer with inProgress := false }).releaseHandlerMemory = false := hrelease
  have hentry : (q.setTimer timer { q.timers timer with inProgress := false }).timers timer =
      { q.timers timer with inProgress := false } := Function.update_self _ _ _
  simp only [endOneExpiry, hrelease', hentry, hrecurring, Bool.false_eq_true, ↓reduceIte, hupdate]
  simp [setTimer, hrelease]

/-- The end of an expiry: the timer is not in progress any more, a pending release is spent on it,
and nothing is queued that was not. -/
theorem endOneExpiry_spec (q : TimerQueue H) (timer : TimerTag) (prevExpiry : ℕ) :
    ∃ queuedTimers expiry, (queuedTimers.map (·.tag) ⊆ q.queuedTags) ∧
      q.endOneExpiry timer prevExpiry =
        { q with queuedTimers, releaseHandlerMemory := false }.setTimer timer
          { q.timers timer with
            inProgress := false
            expiry
            handler := if q.releaseHandlerMemory then none else (q.timers timer).handler } := by
  cases hrelease : q.releaseHandlerMemory with
  | true =>
    exact ⟨q.queuedTimers, _, List.Subset.refl _, endOneExpiry_of_release hrelease prevExpiry⟩
  | false =>
    by_cases hinterval : (q.timers timer).interval = 0
    · obtain ⟨queuedTimers, hperm, heq⟩ :=
        endOneExpiry_of_oneShot hrelease hinterval prevExpiry
      have hsubset : queuedTimers.map (·.tag) ⊆ q.queuedTags := by
        intro tag htag
        exact List.mem_of_mem_erase (hperm.subset htag)
      refine ⟨queuedTimers, (q.timers timer).expiry, hsubset, heq.trans ?_⟩
      simp [hrelease, setTimer]
    · obtain ⟨queuedTimers, expiry, hperm, heq⟩ :=
        endOneExpiry_of_recurring hrelease hinterval prevExpiry
      refine ⟨queuedTimers, expiry, hperm.subset, heq.trans ?_⟩
      simp [hrelease, setTimer]

/-! ### What the functions do to the tags -/

/-- `Dequeue()` recycles the tag of a timer that is not valid, or queued and disarmed
without error. -/
theorem dequeue_recycles {settime : Bool}
    (hqueued : (q.timers timer).isValid = true → timer ∈ q.queuedTags) (hsettime : settime = true)
    (stale : TimerTag) :
    (q.dequeue timer settime stale).1.timerTagRecycleBin = q.timerTagRecycleBin ++ [timer] ∧
      (q.dequeue timer settime stale).1.tagEnd = q.tagEnd := by
  cases hvalid : (q.timers timer).isValid with
  | false =>
    rw [dequeue_of_not_valid hvalid]
    exact ⟨rfl, rfl⟩
  | true =>
    obtain ⟨queuedTimers, bin, timerFd, res, -, -, hbin, heq⟩ :=
      dequeue_of_valid hvalid settime stale
    rw [heq, invalidateTimer_eq]
    exact ⟨(hbin (hqueued hvalid) hsettime).1, rfl⟩

/-- `Dequeue()` recycles the tag, or leaves the tags alone. -/
theorem dequeue_tags (q : TimerQueue H) (timer : TimerTag) (settime : Bool) (stale : TimerTag) :
    ((q.dequeue timer settime stale).1.timerTagRecycleBin = q.timerTagRecycleBin ∨
      (q.dequeue timer settime stale).1.timerTagRecycleBin = q.timerTagRecycleBin ++ [timer]) ∧
    (q.dequeue timer settime stale).1.tagEnd = q.tagEnd := by
  cases hvalid : (q.timers timer).isValid with
  | false =>
    rw [dequeue_of_not_valid hvalid]
    exact ⟨.inr rfl, rfl⟩
  | true =>
    obtain ⟨queuedTimers, bin, timerFd, res, -, hbin, -, heq⟩ :=
      dequeue_of_valid hvalid settime stale
    rw [heq, invalidateTimer_eq]
    exact ⟨hbin, rfl⟩

/-- `Enqueue()` leaves the tags alone. -/
@[simp] theorem doAddTimer_tags (q : TimerQueue H) (timer : TimerTag) (expiry interval : ℕ)
    (settime : Bool) :
    (q.doAddTimer timer expiry interval settime).1.timerTagRecycleBin = q.timerTagRecycleBin ∧
      (q.doAddTimer timer expiry interval settime).1.tagEnd = q.tagEnd := by
  obtain ⟨queuedTimers, timerFd, res, -, -, heq⟩ := q.doAddTimer_spec timer expiry interval settime
  rw [heq]
  exact ⟨rfl, rfl⟩

/-- The end of an expiry leaves the tags alone. -/
@[simp] theorem endOneExpiry_tags (q : TimerQueue H) (timer : TimerTag) (prevExpiry : ℕ) :
    (q.endOneExpiry timer prevExpiry).timerTagRecycleBin = q.timerTagRecycleBin ∧
      (q.endOneExpiry timer prevExpiry).tagEnd = q.tagEnd := by
  obtain ⟨queuedTimers, expiry, -, heq⟩ := q.endOneExpiry_spec timer prevExpiry
  rw [heq]
  exact ⟨rfl, rfl⟩

/-- The end of the loop of `HandleExpiry()` leaves the tags alone. -/
@[simp] theorem primeTimerFd_tags (q : TimerQueue H) (settime : Bool) :
    (q.primeTimerFd settime).timerTagRecycleBin = q.timerTagRecycleBin ∧
      (q.primeTimerFd settime).tagEnd = q.tagEnd := by
  obtain ⟨timerFd, heq⟩ := q.primeTimerFd_spec settime
  rw [heq]
  exact ⟨rfl, rfl⟩

/-! ### How many timers are queued -/

/-- The queue has as many entries as tags. -/
theorem length_queuedTags (q : TimerQueue H) : q.queuedTags.length = q.queuedTimers.length :=
  List.length_map _

/-- `Reserve()` leaves the queue alone. -/
theorem reserve_queuedTimers (q : TimerQueue H) (handler : H) :
    (q.reserve handler).1.queuedTimers = q.queuedTimers := by
  rcases q.reserve_cases handler with ⟨tag, rest, -, heq⟩ | ⟨-, heq⟩ | ⟨-, heq⟩
  · rw [heq]; rfl
  · rw [heq]; rfl
  · rw [heq]

/-- `Enqueue()` adds one entry. -/
theorem doAddTimer_length (q : TimerQueue H) (timer : TimerTag) (expiry interval : ℕ)
    (settime : Bool) :
    (q.doAddTimer timer expiry interval settime).1.queuedTimers.length =
      q.queuedTimers.length + 1 := by
  obtain ⟨queuedTimers, timerFd, res, hperm, -, heq⟩ :=
    q.doAddTimer_spec timer expiry interval settime
  have hlen := hperm.length_eq
  rw [List.length_map, List.length_cons, length_queuedTags] at hlen
  rw [heq]
  exact hlen

/-- `Dequeue()` removes the entry of a timer that is valid, if it is queued, and nothing else. -/
theorem dequeue_length (q : TimerQueue H) (timer : TimerTag) (settime : Bool) (stale : TimerTag) :
    (q.dequeue timer settime stale).1.queuedTimers.length =
      q.queuedTimers.length -
        if (q.timers timer).isValid = true ∧ timer ∈ q.queuedTags then 1 else 0 := by
  cases hvalid : (q.timers timer).isValid with
  | false =>
    rw [dequeue_of_not_valid hvalid]
    simp [recycleTimerTag]
  | true =>
    obtain ⟨queuedTimers, bin, timerFd, res, hperm, -, -, heq⟩ :=
      dequeue_of_valid hvalid settime stale
    have hlen := hperm.length_eq
    rw [List.length_map, List.length_erase, length_queuedTags] at hlen
    rw [heq]
    simp only [true_and]
    rw [hlen]
    split
    · rfl
    · rfl

/-- The end of an expiry adds no entry. -/
theorem endOneExpiry_length_le (q : TimerQueue H) (timer : TimerTag) (prevExpiry : ℕ) :
    (q.endOneExpiry timer prevExpiry).queuedTimers.length ≤ q.queuedTimers.length := by
  cases hrelease : q.releaseHandlerMemory with
  | true =>
    rw [endOneExpiry_of_release hrelease]
    exact Nat.le_refl _
  | false =>
    by_cases hinterval : (q.timers timer).interval = 0
    · obtain ⟨queuedTimers, hperm, heq⟩ := endOneExpiry_of_oneShot hrelease hinterval prevExpiry
      have hlen := hperm.length_eq
      rw [List.length_map] at hlen
      rw [heq]
      refine Nat.le_trans (Nat.le_of_eq hlen) ?_
      rw [← length_queuedTags]
      exact List.length_erase_le
    · obtain ⟨queuedTimers, expiry, hperm, heq⟩ :=
        endOneExpiry_of_recurring hrelease hinterval prevExpiry
      have hlen := hperm.length_eq
      rw [List.length_map, length_queuedTags] at hlen
      rw [heq]
      exact Nat.le_of_eq hlen

/-- The end of the loop of `HandleExpiry()` leaves the queue alone. -/
theorem primeTimerFd_queuedTimers (q : TimerQueue H) (settime : Bool) :
    (q.primeTimerFd settime).queuedTimers = q.queuedTimers := by
  obtain ⟨timerFd, heq⟩ := q.primeTimerFd_spec settime
  rw [heq]

end TimerQueue

end Asrt.Timer
