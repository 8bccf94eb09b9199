import Asrt.Timer.Queue
import Asrt.ToMathlib.Heaps

/-!
# The order of the timer queue

`queued_timers_` is a min-heap by expiry that has at most one entry for a timer, with the expiry
that the table of timers has. `OnQueueUpdate()` makes a heap of whatever the queue holds, so each
operation is described by the entries that it leaves.

## Main results

- `TimerQueue.WellFormed` and the lemmas by which every operation keeps it.
- `TimerQueue.IsMinHeap.front_le`: the front of the queue expires first.
-/

namespace Asrt.Timer.TimerQueue

variable {H : Type} {q q' : TimerQueue H} {timer : TimerTag}

/-! ## Heaps by expiry -/

/-- A min-heap by expiry: no entry expires later than one of its children. -/
def IsMinHeap (queuedTimers : List QueuedTimerEntry) : Prop :=
  ToMathlib.IsHeap (fun timer₁ timer₂ => timer₁.expiry > timer₂.expiry) queuedTimers

theorem strictWeak_expiry :
    ToMathlib.StrictWeak fun timer₁ timer₂ : QueuedTimerEntry => timer₁.expiry > timer₂.expiry where
  asymm h := by simp only [decide_eq_true_eq, decide_eq_false_iff_not] at *; omega
  trans h h' := by simp only [decide_eq_false_iff_not] at *; omega

theorem isMinHeap_onQueueUpdate (queuedTimers : List QueuedTimerEntry) :
    IsMinHeap (onQueueUpdate queuedTimers) :=
  ToMathlib.isHeap_makeHeap strictWeak_expiry queuedTimers

/-- The front of the heap expires first. -/
theorem IsMinHeap.front_le {front : QueuedTimerEntry} {rest : List QueuedTimerEntry}
    (h : IsMinHeap (front :: rest)) {entry : QueuedTimerEntry} (hentry : entry ∈ front :: rest) :
    front.expiry ≤ entry.expiry := by
  have hle := ToMathlib.IsHeap.head_le strictWeak_expiry h hentry
  simpa using hle

/-- The queue is a heap without two entries of one timer, and the table has the expiry of every
timer that is queued. -/
structure WellFormed (q : TimerQueue H) : Prop where
  heap : IsMinHeap q.queuedTimers
  distinct : q.queuedTags.Nodup
  agrees : ∀ entry ∈ q.queuedTimers, entry.expiry = (q.timers entry.tag).expiry

/-- Nothing is queued yet. -/
theorem WellFormed.empty : WellFormed ({} : TimerQueue H) where
  heap := fun _ _ _ _ _ _ h => by cases h
  distinct := .nil
  agrees := nofun

/-- What does not touch the queue nor the expiry of a queued timer keeps the queue well formed. -/
theorem WellFormed.congr (h : q.WellFormed) (hqueue : q'.queuedTimers = q.queuedTimers)
    (hexpiry : ∀ tag ∈ q.queuedTags, (q'.timers tag).expiry = (q.timers tag).expiry) :
    q'.WellFormed where
  heap := hqueue ▸ h.heap
  distinct := by
    rw [queuedTags, hqueue]
    exact h.distinct
  agrees entry hentry := by
    rw [hqueue] at hentry
    rw [hexpiry _ (List.mem_map_of_mem hentry)]
    exact h.agrees entry hentry

/-- Replacing an entry of the table by one with the same expiry changes no expiry. -/
theorem setTimer_expiry {tag : TimerTag} {entry : TimerQueueEntry H}
    (h : entry.expiry = (q.timers tag).expiry) (t : TimerTag) :
    ((q.setTimer tag entry).timers t).expiry = (q.timers t).expiry := by
  by_cases ht : t = tag
  · subst ht
    simpa [setTimer] using h
  · simp [setTimer, ht]

/-! ## Adding a timer -/

theorem doAddTimer_queuedTimers (q : TimerQueue H) (timer : TimerTag) (expiry interval : ℕ)
    (settime : Bool) :
    (q.doAddTimer timer expiry interval settime).1.queuedTimers =
      onQueueUpdate (q.queuedTimers ++ [⟨expiry, timer⟩]) := by
  simp only [doAddTimer, updateTimerFd]
  split
  · split
    · rfl
    · rfl
  · rfl

theorem mem_doAddTimer {expiry interval : ℕ} {settime : Bool} {entry : QueuedTimerEntry} :
    entry ∈ (q.doAddTimer timer expiry interval settime).1.queuedTimers ↔
      entry = ⟨expiry, timer⟩ ∨ entry ∈ q.queuedTimers := by
  rw [doAddTimer_queuedTimers, (onQueueUpdate_perm _).mem_iff, List.mem_append,
    List.mem_singleton, or_comm]

theorem doAddTimer_timers (q : TimerQueue H) (timer : TimerTag) (expiry interval : ℕ)
    (settime : Bool) :
    (q.doAddTimer timer expiry interval settime).1.timers =
      Function.update q.timers timer { q.timers timer with expiry, interval, isValid := true } := by
  obtain ⟨queuedTimers, timerFd, res, -, -, heq⟩ := q.doAddTimer_spec timer expiry interval settime
  rw [heq]
  rfl

/-- The timerfd is programmed if the new timer expires first. -/
theorem doAddTimer_timerFd (q : TimerQueue H) (timer : TimerTag) (expiry interval : ℕ) :
    (q.doAddTimer timer expiry interval true).1.timerFd =
      if q.isNextExpiry expiry then expiry else q.timerFd := by
  have hnext : ∀ entry, (q.setTimer timer entry).isNextExpiry expiry = q.isNextExpiry expiry :=
    fun _ => rfl
  simp only [doAddTimer, updateTimerFd, hnext, ↓reduceIte]
  split
  · rfl
  · rfl

/-- Adding a timer that is not queued keeps the queue well formed. -/
theorem WellFormed.doAddTimer (h : q.WellFormed) (hnot : timer ∉ q.queuedTags)
    (expiry interval : ℕ) (settime : Bool) :
    (q.doAddTimer timer expiry interval settime).1.WellFormed where
  heap := by
    rw [doAddTimer_queuedTimers]
    exact isMinHeap_onQueueUpdate _
  distinct := by
    obtain ⟨queuedTimers, timerFd, res, hperm, -, heq⟩ :=
      q.doAddTimer_spec timer expiry interval settime
    rw [heq]
    exact hperm.nodup_iff.mpr (List.nodup_cons.mpr ⟨hnot, h.distinct⟩)
  agrees entry hentry := by
    rw [doAddTimer_timers]
    rcases mem_doAddTimer.mp hentry with rfl | hold
    · rw [Function.update_self]
    · have hne : entry.tag ≠ timer := by
        rintro rfl
        exact hnot (List.mem_map_of_mem hold)
      rw [Function.update_of_ne hne]
      exact h.agrees entry hold

/-! ## Removing a timer -/

/-- The entries of the other timers stay. -/
theorem mem_removeTimerFromQueue (hdistinct : q.queuedTags.Nodup) {entry : QueuedTimerEntry} :
    entry ∈ (q.removeTimerFromQueue timer).1.queuedTimers ↔
      entry ∈ q.queuedTimers ∧ entry.tag ≠ timer := by
  unfold removeTimerFromQueue
  split
  · -- reheaping changes the order only
    rw [(onQueueUpdate_perm _).mem_iff]
    exact ToMathlib.mem_swapRemove_iff hdistinct
  · rename_i hnot
    rw [isQueued_iff] at hnot
    refine ⟨fun hentry => ⟨hentry, ?_⟩, And.left⟩
    rintro rfl
    exact hnot (List.mem_map_of_mem hentry)

theorem removeTimerFromQueue_timers (q : TimerQueue H) (timer : TimerTag) :
    (q.removeTimerFromQueue timer).1.timers = q.timers := by
  unfold removeTimerFromQueue
  split
  · rfl
  · rfl

theorem removeTimerFromQueue_timerFd (q : TimerQueue H) (timer : TimerTag) :
    (q.removeTimerFromQueue timer).1.timerFd = q.timerFd := by
  unfold removeTimerFromQueue
  split
  · rfl
  · rfl

/-- Removing a timer keeps the queue well formed. -/
theorem WellFormed.removeTimerFromQueue (h : q.WellFormed) (timer : TimerTag) :
    (q.removeTimerFromQueue timer).1.WellFormed where
  heap := by
    unfold TimerQueue.removeTimerFromQueue
    split
    · exact isMinHeap_onQueueUpdate _
    · exact h.heap
  distinct := by
    obtain ⟨queuedTimers, hperm, heq⟩ := q.removeTimerFromQueue_spec timer
    rw [heq]
    exact hperm.nodup_iff.mpr (h.distinct.erase _)
  agrees entry hentry := by
    rw [removeTimerFromQueue_timers]
    exact h.agrees entry ((mem_removeTimerFromQueue h.distinct).mp hentry).1

/-! ## Dequeuing -/

theorem invalidateTimer_queuedTimers (q : TimerQueue H) (timer : TimerTag) :
    (q.invalidateTimer timer).queuedTimers = q.queuedTimers := by
  rw [invalidateTimer_eq]
  rfl

theorem invalidateTimer_timerFd (q : TimerQueue H) (timer : TimerTag) :
    (q.invalidateTimer timer).timerFd = q.timerFd := by
  rw [invalidateTimer_eq]
  rfl

theorem invalidateTimer_expiry (q : TimerQueue H) (timer tag : TimerTag) :
    ((q.invalidateTimer timer).timers tag).expiry = (q.timers tag).expiry := by
  rw [invalidateTimer_eq]
  exact setTimer_expiry (by rfl) tag

/-- Invalidating a timer keeps the queue well formed. -/
theorem WellFormed.invalidateTimer (h : q.WellFormed) (timer : TimerTag) :
    (q.invalidateTimer timer).WellFormed :=
  h.congr (q.invalidateTimer_queuedTimers timer) fun tag _ => q.invalidateTimer_expiry timer tag

/-- `Dequeue()` of a valid timer removes it from the queue, and then disarms the timerfd if it finds
the timer at the front of what is left. -/
theorem dequeue_of_valid_eq (hvalid : (q.timers timer).isValid = true) (stale : TimerTag) :
    ∃ timerTagRecycleBin timerFd,
      (q.dequeue timer true stale).1 =
        { ((q.invalidateTimer timer).removeTimerFromQueue timer).1 with
          timerTagRecycleBin, timerFd } ∧
      timerFd =
        if timer ∈ q.queuedTags ∧
            ((q.invalidateTimer timer).removeTimerFromQueue timer).1.isNextTimer timer stale then 0
        else q.timerFd := by
  have htags : (q.invalidateTimer timer).queuedTags = q.queuedTags := by
    rw [queuedTags, invalidateTimer_queuedTimers]
    rfl
  have hfd := (q.invalidateTimer timer).removeTimerFromQueue_timerFd timer
  rw [invalidateTimer_timerFd] at hfd
  have hres : ((q.invalidateTimer timer).removeTimerFromQueue timer).2 =
      if timer ∈ q.queuedTags then .ok () else .error .apiError := by
    obtain ⟨queuedTimers, -, heq⟩ := (q.invalidateTimer timer).removeTimerFromQueue_spec timer
    rw [heq, htags]
  cases hremove : (q.invalidateTimer timer).removeTimerFromQueue timer with
  | mk removed res =>
    -- the front of `removed` is compared with the timer that is not there any more
    simp only [hremove] at hfd hres ⊢
    subst hres
    by_cases hq : timer ∈ q.queuedTags
    · rw [if_pos hq] at hremove
      cases hnext : removed.isNextTimer timer stale with
      | true =>
        refine ⟨removed.timerTagRecycleBin ++ [timer], 0, ?_, by simp [hq]⟩
        simp [dequeue, doRemoveTimer, hvalid, hremove, hnext, updateTimerFd, recycleTimerTag]
      | false =>
        refine ⟨removed.timerTagRecycleBin ++ [timer], removed.timerFd, ?_, by simp [hfd]⟩
        simp [dequeue, doRemoveTimer, hvalid, hremove, hnext, recycleTimerTag]
    · rw [if_neg hq] at hremove
      refine ⟨removed.timerTagRecycleBin, removed.timerFd, ?_, by simp [hq, hfd]⟩
      simp [dequeue, doRemoveTimer, hvalid, hremove]

/-- `Dequeue()` keeps the queue well formed. -/
theorem WellFormed.dequeue (h : q.WellFormed) (timer stale : TimerTag) :
    (q.dequeue timer true stale).1.WellFormed := by
  cases hvalid : (q.timers timer).isValid with
  | false =>
    rw [dequeue_of_not_valid hvalid]
    exact h.congr rfl fun _ _ => rfl
  | true =>
    obtain ⟨bin, timerFd, heq, -⟩ := dequeue_of_valid_eq hvalid stale
    rw [heq]
    exact ((h.invalidateTimer timer).removeTimerFromQueue timer).congr rfl fun _ _ => rfl

/-- `Dequeue()` leaves the timerfd alone unless it empties the queue: a timer that was removed is
not at the front of what is left. -/
theorem WellFormed.dequeue_timerFd (h : q.WellFormed) (timer stale : TimerTag) :
    (q.dequeue timer true stale).1.timerFd = q.timerFd ∨
      (q.dequeue timer true stale).1.queuedTimers = [] := by
  cases hvalid : (q.timers timer).isValid with
  | false =>
    rw [dequeue_of_not_valid hvalid]
    exact .inl rfl
  | true =>
    obtain ⟨bin, timerFd, heq, hfd⟩ := dequeue_of_valid_eq hvalid stale
    rw [heq]
    cases hleft : ((q.invalidateTimer timer).removeTimerFromQueue timer).1.queuedTimers with
    | nil => exact .inr rfl
    | cons front rest =>
      have hfront : front.tag ≠ timer := by
        have hmem : front ∈
            ((q.invalidateTimer timer).removeTimerFromQueue timer).1.queuedTimers := by simp [hleft]
        exact ((mem_removeTimerFromQueue (h.invalidateTimer timer).distinct).mp hmem).2
      refine .inl (hfd.trans (if_neg ?_))
      simp [isNextTimer, hleft, hfront.symm]

/-- `Dequeue()` adds no entry. -/
theorem WellFormed.mem_of_mem_dequeue (h : q.WellFormed) {stale : TimerTag}
    {entry : QueuedTimerEntry} (hentry : entry ∈ (q.dequeue timer true stale).1.queuedTimers) :
    entry ∈ q.queuedTimers := by
  cases hvalid : (q.timers timer).isValid with
  | false =>
    rw [dequeue_of_not_valid hvalid] at hentry
    exact hentry
  | true =>
    obtain ⟨bin, timerFd, heq, -⟩ := dequeue_of_valid_eq hvalid stale
    rw [heq] at hentry
    have hold := ((mem_removeTimerFromQueue (h.invalidateTimer timer).distinct).mp hentry).1
    rwa [invalidateTimer_queuedTimers] at hold

/-! ## Expiry -/

/-- The entry of a timer that is queued gets the new expiry, the others stay. -/
theorem mem_updateQueuedExpiry {expiry : ℕ} {queuedTimers : List QueuedTimerEntry}
    (hdistinct : (queuedTimers.map (·.tag)).Nodup) {entry : QueuedTimerEntry} :
    entry ∈ updateQueuedExpiry timer expiry queuedTimers ↔
      (entry = ⟨expiry, timer⟩ ∧ timer ∈ queuedTimers.map (·.tag)) ∨
        (entry ∈ queuedTimers ∧ entry.tag ≠ timer) := by
  induction queuedTimers with
  | nil => simp [updateQueuedExpiry]
  | cons first rest ih =>
    obtain ⟨hfirst, hrest⟩ := List.nodup_cons.mp hdistinct
    unfold updateQueuedExpiry
    split
    · rename_i htag
      subst htag
      -- no other entry has the tag
      have hothers : ∀ other ∈ rest, other.tag ≠ first.tag := fun other hother heq =>
        hfirst (List.mem_map.mpr ⟨other, hother, heq⟩)
      simp only [List.mem_cons, List.map_cons, true_or, and_true]
      constructor
      · rintro (rfl | hentry)
        · exact .inl rfl
        · exact .inr ⟨.inr hentry, hothers entry hentry⟩
      · rintro (rfl | ⟨rfl | hentry, hne⟩)
        · exact .inl rfl
        · exact absurd rfl hne
        · exact .inr hentry
    · rename_i htag
      simp only [List.mem_cons, List.map_cons, ih hrest, Ne.symm htag, false_or]
      constructor
      · rintro (rfl | ⟨rfl, hmem⟩ | ⟨hentry, hne⟩)
        · exact .inr ⟨.inl rfl, htag⟩
        · exact .inl ⟨rfl, hmem⟩
        · exact .inr ⟨.inr hentry, hne⟩
      · rintro (⟨rfl, hmem⟩ | ⟨rfl | hentry, hne⟩)
        · exact .inr (.inl ⟨rfl, hmem⟩)
        · exact .inl rfl
        · exact .inr (.inr ⟨hentry, hne⟩)

theorem mem_updateTimerExpiry (hdistinct : q.queuedTags.Nodup) {expiry interval : ℕ}
    {entry : QueuedTimerEntry} :
    entry ∈ (q.updateTimerExpiry timer expiry interval).queuedTimers ↔
      (entry = ⟨expiry, timer⟩ ∧ timer ∈ q.queuedTags) ∨
        (entry ∈ q.queuedTimers ∧ entry.tag ≠ timer) := by
  simp only [updateTimerExpiry]
  split
  · rw [(onQueueUpdate_perm _).mem_iff]
    exact mem_updateQueuedExpiry hdistinct
  · rename_i hnot
    have hmem : timer ∉ q.queuedTags := fun hmem => hnot (isQueued_iff.mpr hmem)
    simp only [hmem, and_false, false_or]
    refine ⟨fun hentry => ⟨hentry, ?_⟩, And.left⟩
    rintro rfl
    exact hmem (List.mem_map_of_mem hentry)

/-- `UpdateTimerExpiry()` keeps the queue well formed. -/
theorem WellFormed.updateTimerExpiry (h : q.WellFormed) (timer : TimerTag) (expiry interval : ℕ) :
    (q.updateTimerExpiry timer expiry interval).WellFormed where
  heap := by
    simp only [TimerQueue.updateTimerExpiry]
    split
    · exact isMinHeap_onQueueUpdate _
    · exact h.heap
  distinct := by
    obtain ⟨queuedTimers, hperm, heq⟩ := q.updateTimerExpiry_spec timer expiry interval
    rw [heq]
    exact hperm.nodup_iff.mpr h.distinct
  agrees entry hentry := by
    obtain ⟨queuedTimers, -, heq⟩ := q.updateTimerExpiry_spec timer expiry interval
    have hmem := (mem_updateTimerExpiry h.distinct).mp hentry
    rw [heq]
    rcases hmem with ⟨rfl, -⟩ | ⟨hold, hne⟩
    · simp [setTimer]
    · simp only [setTimer, Function.update_of_ne hne]
      exact h.agrees entry hold

/-- Beginning to handle a timer keeps the queue well formed. -/
theorem WellFormed.beginOneExpiry (h : q.WellFormed) (tag : TimerTag) :
    (q.beginOneExpiry tag).WellFormed :=
  h.congr rfl fun t _ => setTimer_expiry (by rfl) t

/-- The end of an expiry, by its three cases. -/
theorem endOneExpiry_eq (q : TimerQueue H) (tag : TimerTag) (prevExpiry : ℕ) :
    q.endOneExpiry tag prevExpiry =
      if q.releaseHandlerMemory then
        { q with releaseHandlerMemory := false }.setTimer tag
          { q.timers tag with inProgress := false, handler := none }
      else if (q.timers tag).interval = 0 then
        ((q.setTimer tag { q.timers tag with inProgress := false }).removeTimerFromQueue tag).1
      else
        (q.setTimer tag { q.timers tag with inProgress := false }).updateTimerExpiry tag
          (prevExpiry + (q.timers tag).interval) (q.timers tag).interval := by
  simp [endOneExpiry, setTimer]

/-- The end of an expiry leaves the timerfd alone. -/
theorem endOneExpiry_timerFd (q : TimerQueue H) (tag : TimerTag) (prevExpiry : ℕ) :
    (q.endOneExpiry tag prevExpiry).timerFd = q.timerFd := by
  rw [endOneExpiry_eq]
  split_ifs
  · rfl
  · rw [removeTimerFromQueue_timerFd]
    rfl
  · obtain ⟨queuedTimers, -, heq⟩ := updateTimerExpiry_spec
      (q.setTimer tag { q.timers tag with inProgress := false }) tag
      (prevExpiry + (q.timers tag).interval) (q.timers tag).interval
    rw [heq]
    rfl

/-- After the end of an expiry an entry is one that was there before, or the one of the recurring
timer that has expired. -/
theorem WellFormed.mem_of_mem_endOneExpiry (h : q.WellFormed) {tag : TimerTag} {prevExpiry : ℕ}
    {entry : QueuedTimerEntry} (hentry : entry ∈ (q.endOneExpiry tag prevExpiry).queuedTimers) :
    entry ∈ q.queuedTimers ∨
      ((q.timers tag).interval ≠ 0 ∧ entry = ⟨prevExpiry + (q.timers tag).interval, tag⟩) := by
  have hdistinct : (q.setTimer tag { q.timers tag with inProgress := false }).queuedTags.Nodup :=
    h.distinct
  rw [endOneExpiry_eq] at hentry
  split_ifs at hentry with hrelease hinterval
  · exact .inl hentry
  · exact .inl ((mem_removeTimerFromQueue hdistinct).mp hentry).1
  · rcases (mem_updateTimerExpiry hdistinct).mp hentry with ⟨rfl, -⟩ | ⟨hold, -⟩
    · exact .inr ⟨hinterval, rfl⟩
    · exact .inl hold

/-- The end of an expiry keeps the queue well formed. -/
theorem WellFormed.endOneExpiry (h : q.WellFormed) (tag : TimerTag) (prevExpiry : ℕ) :
    (q.endOneExpiry tag prevExpiry).WellFormed := by
  have hprogress : (q.setTimer tag { q.timers tag with inProgress := false }).WellFormed :=
    h.congr rfl fun t _ => setTimer_expiry (by rfl) t
  rw [endOneExpiry_eq]
  split_ifs
  · exact h.congr rfl fun t _ => setTimer_expiry (by rfl) t
  · exact hprogress.removeTimerFromQueue tag
  · exact hprogress.updateTimerExpiry tag _ _

/-- Programming the timerfd keeps the queue well formed. -/
theorem WellFormed.primeTimerFd (h : q.WellFormed) (settime : Bool) :
    (q.primeTimerFd settime).WellFormed := by
  obtain ⟨timerFd, heq⟩ := q.primeTimerFd_spec settime
  rw [heq]
  exact h.congr rfl fun _ _ => rfl

/-- `Reserve()` leaves the timerfd alone. -/
theorem reserve_timerFd (q : TimerQueue H) (handler : H) :
    (q.reserve handler).1.timerFd = q.timerFd := by
  rcases q.reserve_cases handler with ⟨tag, rest, -, heq⟩ | ⟨-, heq⟩ | ⟨-, heq⟩
  · rw [heq]
    rfl
  · rw [heq]
    rfl
  · rw [heq]

/-- `Reserve()` keeps the queue well formed. -/
theorem WellFormed.reserve (h : q.WellFormed) (handler : H) : (q.reserve handler).1.WellFormed := by
  refine h.congr (q.reserve_queuedTimers handler) fun t _ => ?_
  rcases q.reserve_cases handler with ⟨tag, rest, -, heq⟩ | ⟨-, heq⟩ | ⟨-, heq⟩
  · rw [heq]
    exact setTimer_expiry (by rfl) t
  · rw [heq]
    exact setTimer_expiry (by rfl) t
  · rw [heq]

end Asrt.Timer.TimerQueue
