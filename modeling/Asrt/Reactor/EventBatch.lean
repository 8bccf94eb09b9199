import Asrt.Reactor.Basic

/-!
# A batch of epoll events

`HandleEventsImpl()` walks through the events that one call of `epoll_wait` returned: the wake-up of
the reactor, the timer descriptor and the I/O entries, in the order in which the kernel put them.
The walk ends at the first wake-up event. The events behind it are not handled, and since I/O
entries are registered edge-triggered the kernel does not return them again.

`no_event_dropped_iff` says which batches are handled completely: those in which the wake-up event,
if there is one, is the last.
-/

namespace Asrt.Reactor

/-- The event of an I/O entry, neither the wake-up nor the timer. -/
def isIoEvent (event : EpollEvent) : Bool :=
  event.tag ≠ kReactorUnblockTag ∧ event.tag ≠ kTimerTag

/-- What handling a batch yields: the reactor, the operations queued for the executor and the reason
to return. The ghost field `passed` lists the events for which `HandleSingleEvent()` was called. -/
structure BatchResult (H : Type) where
  reactor : EpollReactor H
  opQueue : List Operation
  reason : Except ErrorCode UnblockReason
  passed : List EpollEvent

namespace EpollReactor

variable {H : Type}

/-- The loop of `HandleEventsImpl()` over the events of a batch. -/
def handleBatch : List EpollEvent → EpollReactor H → List Operation → BatchResult H
  | [], r, opQueue => ⟨r, opQueue, .ok .eventsHandled, []⟩
  | event :: events, r, opQueue =>
    -- `HandleUnblock()` reads the eventfd, and the loop is left with the rest of the batch unseen
    if event.tag = kReactorUnblockTag then ⟨r, opQueue, .ok .unblocked, []⟩
    else if event.tag = kTimerTag then handleBatch events r (opQueue ++ [.timer])
    else
      let (r, opQueue) := r.handleSingleEvent event opQueue
      let result := handleBatch events r opQueue
      { result with passed := event :: result.passed }

/-- `HandleEventsImpl()`. `epollWait` is what the call of `epoll_wait` returns, if it is made. -/
def handleEventsImpl (r : EpollReactor H) (epollWait : Except ErrorCode (List EpollEvent))
    (opQueue : List Operation) : BatchResult H :=
  let (r, opQueue, numSoftwareEvents) := r.handleSoftwareEvents opQueue
  -- with software events at hand `epoll_wait` is not called
  if 0 < numSoftwareEvents then ⟨r, opQueue, .ok .softwareEvent, []⟩
  else
    match epollWait with
    | .error ec => ⟨r, opQueue, .error ec, []⟩
    | .ok [] => ⟨r, opQueue, .ok .timeout, []⟩
    | .ok (event :: events) => handleBatch (event :: events) r opQueue

/-- `HandleEventsImpl()` gets to the call of `epoll_wait`: no software event is handled. -/
def CallsEpollWait (r : EpollReactor H) : Prop :=
  ∀ tag ∈ r.triggeredSoftwareEvents, (r.operations tag).valid = false

/-- What one event of a batch is to do to the reactor and the queue: an I/O event is handled by
`HandleSingleEvent()`, a timer event queues the timer operation, a wake-up event does nothing. -/
def handleEvent (s : EpollReactor H × List Operation) (event : EpollEvent) :
    EpollReactor H × List Operation :=
  if event.tag = kReactorUnblockTag then s
  else if event.tag = kTimerTag then (s.1, s.2 ++ [.timer])
  else s.1.handleSingleEvent event s.2

/-- Every I/O event of the batch is passed to `HandleSingleEvent()`, in order, and the reactor and
the queue are left as all events of the batch make them, one after the other. -/
def NoEventDropped (r : EpollReactor H) (batch : List EpollEvent) (opQueue : List Operation) :
    Prop :=
  let result := r.handleEventsImpl (.ok batch) opQueue
  result.passed = batch.filter isIoEvent ∧
    (result.reactor, result.opQueue) = batch.foldl handleEvent (r, opQueue)

instance (r : EpollReactor H) : Decidable r.CallsEpollWait :=
  inferInstanceAs (Decidable (∀ _ ∈ _, _))

/-- The event finds the entry valid, not yet posted and interested. -/
def Reports (r : EpollReactor H) (event : EpollEvent) : Prop :=
  (r.operations event.tag).valid = true ∧ (r.operations event.tag).handlerPosted = false ∧
    ((Events.ofMask event.events).intersection
      (r.operations event.tag).monitoredEvents).empty = false

instance (r : EpollReactor H) (event : EpollEvent) : Decidable (r.Reports event) :=
  inferInstanceAs (Decidable (_ ∧ _ ∧ _))

/-! ## One event -/

/-- An event that is reported posts the entry and queues its operation. -/
theorem handleSingleEvent_of_reports {r : EpollReactor H} {event : EpollEvent}
    (h : r.Reports event) (opQueue : List Operation) :
    r.handleSingleEvent event opQueue =
      (r.setEntry event.tag { r.operations event.tag with
        capturedEvents := Events.ofMask event.events, handlerPosted := true },
      opQueue ++ [.ioEvent event.tag]) := by
  obtain ⟨hvalid, hposted, hreport⟩ := h
  simp [handleSingleEvent, hvalid, hposted, hreport]

/-- An event that is not reported is only recorded. -/
theorem handleSingleEvent_of_not_reports {r : EpollReactor H} {event : EpollEvent}
    (h : ¬ r.Reports event) (opQueue : List Operation) :
    r.handleSingleEvent event opQueue =
      (r.setEntry event.tag { r.operations event.tag with
        capturedEvents := Events.ofMask event.events }, opQueue) := by
  unfold handleSingleEvent
  dsimp only
  split_ifs with hvalid hposted hempty
  · rfl
  · rfl
  · rfl
  · exact absurd ⟨by simpa using hvalid, by simpa using hposted, by simpa using hempty⟩ h

/-- `HandleSingleEvent()` in one equation. -/
theorem handleSingleEvent_eq_ite (r : EpollReactor H) (event : EpollEvent)
    (opQueue : List Operation) :
    r.handleSingleEvent event opQueue =
      (r.setEntry event.tag { r.operations event.tag with
        capturedEvents := Events.ofMask event.events
        handlerPosted := (r.operations event.tag).handlerPosted || decide (r.Reports event) },
      opQueue ++ if r.Reports event then [.ioEvent event.tag] else []) := by
  by_cases h : r.Reports event
  · rw [handleSingleEvent_of_reports h]
    simp [h]
  · rw [handleSingleEvent_of_not_reports h]
    simp [h]

/-- `HandleSingleEvent()` records the captured events of the entry, and queues the entry's operation
if and only if the entry is valid, not yet posted and one of the events is monitored. -/
theorem handleSingleEvent_spec (r : EpollReactor H) (event : EpollEvent)
    (opQueue : List Operation) :
    ((r.handleSingleEvent event opQueue).1.operations event.tag).capturedEvents =
      Events.ofMask event.events ∧
    (r.handleSingleEvent event opQueue).2 =
      opQueue ++ if r.Reports event then [.ioEvent event.tag] else [] := by
  by_cases h : r.Reports event
  · rw [handleSingleEvent_of_reports h, if_pos h]
    simp [setEntry]
  · rw [handleSingleEvent_of_not_reports h, if_neg h]
    simp [setEntry]

/-! ## The loop -/

/-- The loop passes exactly the I/O events before the first wake-up event. -/
theorem passed_handleBatch (batch : List EpollEvent) (r : EpollReactor H)
    (opQueue : List Operation) :
    (handleBatch batch r opQueue).passed =
      (batch.takeWhile (·.tag ≠ kReactorUnblockTag)).filter isIoEvent := by
  induction batch generalizing r opQueue with
  | nil => rfl
  | cons event events ih =>
    unfold handleBatch
    split
    · rename_i hunblock
      simp [hunblock]
    · rename_i hne
      rw [List.takeWhile_cons_of_pos (by simpa using hne)]
      split
      · rename_i htimer
        rw [ih, List.filter_cons_of_neg (by simp [isIoEvent, htimer])]
      · rename_i htimer
        rw [List.filter_cons_of_pos (by simp [isIoEvent, hne, htimer])]
        simp [ih]

/-- The loop leaves the reactor and the queue as the events before the first wake-up make them. -/
theorem state_handleBatch (batch : List EpollEvent) (r : EpollReactor H)
    (opQueue : List Operation) :
    ((handleBatch batch r opQueue).reactor, (handleBatch batch r opQueue).opQueue) =
      (batch.takeWhile (·.tag ≠ kReactorUnblockTag)).foldl handleEvent (r, opQueue) := by
  induction batch generalizing r opQueue with
  | nil => rfl
  | cons event events ih =>
    unfold handleBatch
    split
    · rename_i hunblock
      simp [hunblock]
    · rename_i hne
      rw [List.takeWhile_cons_of_pos (by simpa using hne), List.foldl_cons]
      split
      · rename_i htimer
        rw [ih, handleEvent, if_neg hne, if_pos htimer]
      · rename_i htimer
        simp only [ih, handleEvent, if_neg hne, if_neg htimer]

/-- Wake-up events do nothing. -/
theorem foldl_handleEvent_of_unblock {events : List EpollEvent}
    (h : ∀ event ∈ events, event.tag = kReactorUnblockTag) (s : EpollReactor H × List Operation) :
    events.foldl handleEvent s = s := by
  induction events generalizing s with
  | nil => rfl
  | cons event events ih =>
    have hevent : handleEvent s event = s := if_pos (h event List.mem_cons_self)
    rw [List.foldl_cons, hevent]
    exact ih (fun e he => h e (List.mem_cons_of_mem _ he)) s

/-- The number of timer operations that are queued by a list of events. -/
theorem count_timer_foldl_handleEvent {events : List EpollEvent}
    (s : EpollReactor H × List Operation) :
    (events.foldl handleEvent s).2.count .timer =
      s.2.count .timer + events.countP (·.tag = kTimerTag) := by
  induction events generalizing s with
  | nil => rfl
  | cons event events ih =>
    rw [List.foldl_cons, ih, handleEvent]
    split_ifs with hunblock htimer
    · -- a wake-up is no timer event
      have hne : event.tag ≠ kTimerTag := by
        rw [hunblock]
        decide
      rw [List.countP_cons_of_neg (by simpa using hne)]
    · rw [List.countP_cons_of_pos (by simpa using htimer), List.count_append]
      simp
      omega
    · rw [List.countP_cons_of_neg (by simpa using htimer),
        (handleSingleEvent_spec s.1 event s.2).2, List.count_append]
      split <;> simp

/-! ## The batch -/

/-- Without a valid triggered software event `HandleSoftwareEvents()` does nothing. -/
theorem handleSoftwareEventsLoop_of_invalid {tags : List HandlerTag} {r : EpollReactor H}
    (h : ∀ tag ∈ tags, (r.operations tag).valid = false) (opQueue : List Operation) (n : ℕ) :
    handleSoftwareEventsLoop tags r opQueue n = (r, opQueue, n) := by
  induction tags with
  | nil => rfl
  | cons tag tags ih =>
    have htag := h tag List.mem_cons_self
    simp only [handleSoftwareEventsLoop, htag, Bool.not_false, ↓reduceIte]
    exact ih fun u hu => h u (List.mem_cons_of_mem _ hu)

/-- Once `epoll_wait` is called, `HandleEventsImpl()` passes the I/O events before the first
wake-up, and leaves what the events before it make. -/
theorem handleEventsImpl_spec {r : EpollReactor H} (hwait : r.CallsEpollWait)
    (batch : List EpollEvent) (opQueue : List Operation) :
    (r.handleEventsImpl (.ok batch) opQueue).passed =
      (batch.takeWhile (·.tag ≠ kReactorUnblockTag)).filter isIoEvent ∧
    ((r.handleEventsImpl (.ok batch) opQueue).reactor,
        (r.handleEventsImpl (.ok batch) opQueue).opQueue) =
      (batch.takeWhile (·.tag ≠ kReactorUnblockTag)).foldl handleEvent (r, opQueue) := by
  have hsoft : r.handleSoftwareEvents opQueue = (r, opQueue, 0) :=
    handleSoftwareEventsLoop_of_invalid hwait opQueue 0
  cases batch with
  | nil => simp [handleEventsImpl, hsoft]
  | cons event events =>
    simp only [handleEventsImpl, hsoft, lt_irrefl, ↓reduceIte]
    exact ⟨passed_handleBatch _ r opQueue, state_handleBatch _ r opQueue⟩

/-- Of an event behind the first wake-up that is not a wake-up itself, nothing remains. -/
theorem eq_unblock_of_forall {event : EpollEvent} (hio : isIoEvent event = false)
    (htimer : event.tag ≠ kTimerTag) : event.tag = kReactorUnblockTag := by
  by_contra hne
  simp [isIoEvent, hne, htimer] at hio

end EpollReactor

open EpollReactor in
/-- No event dropped. Each call of `HandleSingleEvent()` does what it has to, and a batch returned
by `epoll_wait` is handled completely if and only if behind its first wake-up event there are only
wake-up events. -/
theorem no_event_dropped_iff {H : Type} {r : EpollReactor H} (hwait : r.CallsEpollWait)
    (batch : List EpollEvent) (opQueue : List Operation) :
    (∀ (r : EpollReactor H) event opQueue,
      ((r.handleSingleEvent event opQueue).1.operations event.tag).capturedEvents =
        Events.ofMask event.events ∧
      (r.handleSingleEvent event opQueue).2 =
        opQueue ++ if r.Reports event then [.ioEvent event.tag] else []) ∧
    (r.NoEventDropped batch opQueue ↔
      ∀ event ∈ batch.dropWhile (·.tag ≠ kReactorUnblockTag), event.tag = kReactorUnblockTag) := by
  refine ⟨handleSingleEvent_spec, ?_⟩
  obtain ⟨hpassed, hstate⟩ := handleEventsImpl_spec hwait batch opQueue
  -- split the batch at its first wake-up: the loop handles the front, so all is about the rest
  have hsplit := List.takeWhile_append_dropWhile (p := fun e : EpollEvent =>
    decide (e.tag ≠ kReactorUnblockTag)) (l := batch)
  have hfilter := congrArg (List.filter isIoEvent) hsplit
  have hfold := congrArg (List.foldl handleEvent (r, opQueue)) hsplit
  rw [List.filter_append] at hfilter
  rw [List.foldl_append] at hfold
  simp only [NoEventDropped]
  rw [hpassed, hstate, ← hfilter, ← hfold]
  constructor
  -- a rest without I/O and without timer events consists of wake-ups
  · rintro ⟨hio, hrest⟩ event hevent
    have hnil : (batch.dropWhile (·.tag ≠ kReactorUnblockTag)).filter isIoEvent = [] :=
      List.self_eq_append_right.mp hio
    have hcount := congrArg (fun s : EpollReactor H × List Operation => s.2.count .timer) hrest
    simp only [count_timer_foldl_handleEvent] at hcount
    have hzero : (batch.dropWhile (·.tag ≠ kReactorUnblockTag)).countP (·.tag = kTimerTag) = 0 := by
      omega
    refine eq_unblock_of_forall ?_ ?_
    · simpa using List.filter_eq_nil_iff.mp hnil event hevent
    · simpa using List.countP_eq_zero.mp hzero event hevent
  · intro h
    constructor
    · refine List.self_eq_append_right.mpr (List.filter_eq_nil_iff.mpr fun event hevent => ?_)
      simp [isIoEvent, h event hevent]
    · rw [foldl_handleEvent_of_unblock h]

/-- A reactor whose entry `0` is registered for reading. -/
def readingReactor : EpollReactor Unit where
  size := 1
  operations tag := if tag = 0 then { valid := true, monitoredEvents := .kRead } else {}
  usedOperationsEnd := 1

/-- The wake-up comes last: the event of entry `0` and the timer event before it are handled. -/
theorem no_event_dropped_iff_wake_up_last :
    readingReactor.NoEventDropped
        [⟨EPOLLIN, 0⟩, ⟨EPOLLIN, kTimerTag⟩, ⟨EPOLLIN, kReactorUnblockTag⟩] [] ∧
      (readingReactor.handleEventsImpl
        (.ok [⟨EPOLLIN, 0⟩, ⟨EPOLLIN, kTimerTag⟩, ⟨EPOLLIN, kReactorUnblockTag⟩]) []).opQueue =
      [.ioEvent 0, .timer] :=
  ⟨(no_event_dropped_iff (r := readingReactor) (by decide) _ []).2.mpr (by decide), by decide⟩

/-- The wake-up comes first: the event of entry `0`, which is registered for reading, is not
passed on. -/
theorem no_event_dropped_wake_up_first :
    ∃ (r : EpollReactor Unit) (batch : List EpollEvent), r.CallsEpollWait ∧
      r.Reports ⟨EPOLLIN, 0⟩ ∧ ⟨EPOLLIN, 0⟩ ∈ batch ∧ ¬ r.NoEventDropped batch [] := by
  refine ⟨readingReactor, [⟨EPOLLIN, kReactorUnblockTag⟩, ⟨EPOLLIN, 0⟩], by decide, by decide,
    by decide, ?_⟩
  rintro ⟨hpassed, -⟩
  revert hpassed
  decide

end Asrt.Reactor
