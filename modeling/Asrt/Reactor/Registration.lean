import Asrt.Reactor.Basic

/-!
# What the reactor's operations do to the table

The slot allocator, `RegisterImpl()`, `DerigsterImpl()` and the start of an operation, each
described by one equation per outcome, so that users of the reactor need not look into the
definitions.
-/

namespace Asrt.Reactor.EpollReactor

variable {H : Type} {r r' : EpollReactor H} {tag : HandlerTag} {ioSource : NativeHandle}

@[simp] theorem setEntry_operations (r : EpollReactor H) (tag : HandlerTag)
    (entry : OperationEntry H) :
    (r.setEntry tag entry).operations = Function.update r.operations tag entry := rfl

@[simp] theorem setEntry_kernel (r : EpollReactor H) (tag : HandlerTag)
    (entry : OperationEntry H) : (r.setEntry tag entry).kernel = r.kernel := rfl

@[simp] theorem setEntry_size (r : EpollReactor H) (tag : HandlerTag)
    (entry : OperationEntry H) : (r.setEntry tag entry).size = r.size := rfl

/-! ## The slot allocator -/

/-- A position that the loop returns was found before or is a free entry it visits. -/
theorem findFreeOperationSlotLoop_position {operations : HandlerTag → OperationEntry H}
    {its : List ℕ} {position last position' last' : Option ℕ}
    (h : findFreeOperationSlotLoop operations ioSource its position last =
      .ok (position', last')) (hpos : position' = some tag) :
    position = some tag ∨ tag ∈ its ∧ (operations tag).valid = false ∧
      (operations tag).handlerPosted = false := by
  induction its generalizing position last with
  | nil =>
    simp only [findFreeOperationSlotLoop, Except.ok.injEq, Prod.mk.injEq] at h
    exact .inl (h.1.trans hpos)
  | cons it its ih =>
    -- in every case but the first free entry the loop goes on with the same position
    have weaken (hrest : position = some tag ∨ tag ∈ its ∧ (operations tag).valid = false ∧
        (operations tag).handlerPosted = false) :
        position = some tag ∨ tag ∈ it :: its ∧ (operations tag).valid = false ∧
          (operations tag).handlerPosted = false :=
      hrest.imp_right fun ⟨hmem, hfree⟩ => ⟨List.mem_cons_of_mem _ hmem, hfree⟩
    simp only [findFreeOperationSlotLoop] at h
    split at h
    · rename_i hvalid
      split at h
      · rename_i hposted
        split at h
        -- this is the first free entry, and the loop keeps it
        · rcases ih h with hit | ⟨hmem, hfree⟩
          · obtain rfl : it = tag := Option.some.inj hit
            exact .inr ⟨List.mem_cons_self, by simpa using hvalid, by simpa using hposted⟩
          · exact .inr ⟨List.mem_cons_of_mem _ hmem, hfree⟩
        · exact weaken (ih h)
      · exact weaken (ih h)
    · split at h
      -- the descriptor is registered already
      · cases h
      · exact weaken (ih h)

/-- If none of the entries is valid for the descriptor, the loop keeps the position it has or finds
the first free entry. -/
theorem findFreeOperationSlotLoop_first (operations : HandlerTag → OperationEntry H) {its : List ℕ}
    (hnew : ∀ it ∈ its, (operations it).valid = true → (operations it).ioSource ≠ ioSource)
    (position last : Option ℕ) :
    ∃ last', findFreeOperationSlotLoop operations ioSource its position last =
      .ok (position.or (its.find? fun it => !(operations it).valid &&
        !(operations it).handlerPosted), last') := by
  induction its generalizing position last with
  | nil => exact ⟨last, by simp [findFreeOperationSlotLoop]⟩
  | cons it its ih =>
    have hrest := ih fun it' hit' => hnew it' (List.mem_cons_of_mem _ hit')
    simp only [findFreeOperationSlotLoop]
    cases hvalid : (operations it).valid with
    | true =>
      -- the entry is registered, for another descriptor
      rw [if_neg (by simp), if_neg (hnew it List.mem_cons_self hvalid),
        List.find?_cons_of_neg (by simp [hvalid])]
      exact hrest position (some it)
    | false =>
      cases hposted : (operations it).handlerPosted with
      | true =>
        rw [if_pos (by simp), if_neg (by simp), List.find?_cons_of_neg (by simp [hposted])]
        exact hrest position (some it)
      | false =>
        rw [if_pos (by simp), if_pos (by simp), List.find?_cons_of_pos (by simp [hvalid, hposted])]
        cases position with
        | none =>
          obtain ⟨last', heq⟩ := hrest (some it) (some it)
          exact ⟨last', by simpa using heq⟩
        | some found =>
          obtain ⟨last', heq⟩ := hrest (some found) last
          exact ⟨last', by simpa using heq⟩

/-- `FindFreeOperationSlot()` returns the first free entry that it visits, if no entry is valid for
the descriptor. -/
theorem findFreeOperationSlot_first
    (hnew : ∀ tag, (r.operations tag).valid = true → (r.operations tag).ioSource ≠ ioSource)
    (hvisited : tag < min (r.usedOperationsEnd + 1) r.size)
    (hvalid : (r.operations tag).valid = false) (hposted : (r.operations tag).handlerPosted = false)
    (hfirst : ∀ u, u < tag →
      (r.operations u).valid = true ∨ (r.operations u).handlerPosted = true) :
    (r.findFreeOperationSlot ioSource).2 = .ok tag := by
  have hvisits (it : HandlerTag) (_ : it ∈ List.range (min (r.usedOperationsEnd + 1) r.size)) :=
    hnew it
  obtain ⟨last, hloop⟩ := findFreeOperationSlotLoop_first r.operations hvisits none none
  have hfind : (List.range (min (r.usedOperationsEnd + 1) r.size)).find?
      (fun it => !(r.operations it).valid && !(r.operations it).handlerPosted) = some tag := by
    rw [List.find?_range_eq_some]
    refine ⟨by simp [hvalid, hposted], List.mem_range.mpr hvisited, ?_⟩
    intro u hu
    rcases hfirst u hu with h | h <;> simp [h]
  simp [findFreeOperationSlot, hloop, hfind]

/-- The end of a search changes at most the end of the entries in use. -/
theorem exists_usedOperationsEnd (r : EpollReactor H) (lastUsedEntry : Option ℕ) :
    ∃ used, (if r.usedOperationsEnd ≠ r.size then
        { r with usedOperationsEnd := (lastUsedEntry.map (· + 1)).getD r.usedOperationsEnd }
      else r) = { r with usedOperationsEnd := used } := by
  split
  · exact ⟨_, rfl⟩
  · exact ⟨r.usedOperationsEnd, rfl⟩

/-- `FindFreeOperationSlot()` returns a free entry of the table and changes only the end of the
entries in use. -/
theorem findFreeOperationSlot_spec {res : Except ErrorCode HandlerTag}
    (h : r.findFreeOperationSlot ioSource = (r', res)) :
    (∃ used, r' = { r with usedOperationsEnd := used }) ∧
    ∀ tag, res = .ok tag → tag < r.size ∧ (r.operations tag).valid = false ∧
      (r.operations tag).handlerPosted = false := by
  unfold findFreeOperationSlot at h
  split at h
  -- the early exit leaves the end of the entries in use as it is
  · obtain ⟨rfl, rfl⟩ := Prod.mk.inj h
    exact ⟨⟨_, rfl⟩, fun tag htag => by cases htag⟩
  · rename_i position last hloop
    have hused := r.exists_usedOperationsEnd last
    dsimp only at h
    split at h
    · obtain ⟨rfl, rfl⟩ := Prod.mk.inj h
      exact ⟨hused, fun tag htag => by cases htag⟩
    · rename_i found
      obtain ⟨rfl, rfl⟩ := Prod.mk.inj h
      refine ⟨hused, fun tag htag => ?_⟩
      obtain rfl : found = tag := Except.ok.inj htag
      rcases findFreeOperationSlotLoop_position hloop rfl with hnone | ⟨hmem, hfree⟩
      · cases hnone
      · exact ⟨lt_of_lt_of_le (List.mem_range.mp hmem) (min_le_right _ _), hfree⟩

/-! ## Registration -/

/-- The entry that `RegisterImpl()` writes for an I/O event. -/
def registeredEntry (entry : OperationEntry H) (ioSource : NativeHandle) (events : Events)
    (handler : H) : OperationEntry H :=
  { entry with
    ioSource
    handler := some handler
    valid := true
    monitoredEvents := events.add (EPOLLIN ||| EPOLLPRI)
    capturedEvents := {}
    handlerPosted := false }

/-- A successful registration for I/O takes a free slot, has epoll add the descriptor and writes the
entry. -/
theorem epollAdd_of_registerImpl {events : Events} {handler : H} {resources : Bool}
    (hio : events.hasIoEvent = true)
    (h : r.registerImpl .ioEvent ioSource events handler resources = (r', .ok tag)) :
    (tag < r.size ∧ (r.operations tag).valid = false ∧ (r.operations tag).handlerPosted = false) ∧
    ∃ used kernel, r.kernel.epollAdd ioSource
        ⟨(events.add (EPOLLIN ||| EPOLLPRI)).eventMask, tag⟩ resources = .ok kernel ∧
      r' = { r with
        usedOperationsEnd := used
        kernel
        operations := Function.update r.operations tag
          (registeredEntry (r.operations tag) ioSource events handler) } := by
  rcases hfind : r.findFreeOperationSlot ioSource with ⟨r₁, slot⟩
  obtain ⟨⟨used, rfl⟩, hfree⟩ := findFreeOperationSlot_spec hfind
  simp only [registerImpl, hfind] at h
  cases slot with
  | error ec => cases (Prod.mk.inj h).2
  | ok slot =>
    simp only [hio, and_self, ↓reduceIte] at h
    split at h
    -- the kernel refuses the descriptor
    · cases (Prod.mk.inj h).2
    · rename_i kernel hadd
      obtain ⟨hr', htag⟩ := Prod.mk.inj h
      obtain rfl : slot = tag := Except.ok.inj htag
      refine ⟨hfree slot rfl, used, kernel, hadd, ?_⟩
      rw [← hr']
      simp [setEntry, registeredEntry]

/-- The state after a successful registration for I/O: the descriptor is in the interest list. -/
theorem registerImpl_ok {events : Events} {handler : H} {resources : Bool}
    (hio : events.hasIoEvent = true)
    (h : r.registerImpl .ioEvent ioSource events handler resources = (r', .ok tag)) :
    tag < r.size ∧ (r.operations tag).valid = false ∧ (r.operations tag).handlerPosted = false ∧
    ∃ used, r' = { r with
      usedOperationsEnd := used
      kernel := { r.kernel with
        interest := Function.update r.kernel.interest ioSource
          (some ⟨(events.add (EPOLLIN ||| EPOLLPRI)).eventMask, tag⟩) }
      operations := Function.update r.operations tag
        (registeredEntry (r.operations tag) ioSource events handler) } := by
  obtain ⟨⟨hlt, hvalid, hposted⟩, used, kernel, hadd, rfl⟩ := epollAdd_of_registerImpl hio h
  refine ⟨hlt, hvalid, hposted, used, ?_⟩
  rw [Kernel.eq_of_epollAdd hadd]

/-- A descriptor that was registered for I/O is open. -/
theorem isOpen_of_registerImpl {events : Events} {handler : H} {resources : Bool}
    (hio : events.hasIoEvent = true)
    (h : r.registerImpl .ioEvent ioSource events handler resources = (r', .ok tag)) :
    r.kernel.isOpen ioSource = true := by
  obtain ⟨-, used, kernel, hadd, -⟩ := epollAdd_of_registerImpl hio h
  unfold Kernel.epollAdd at hadd
  split_ifs at hadd with hclosed
  simpa using hclosed

/-- A descriptor that was registered for I/O was not in the interest list. -/
theorem interest_of_registerImpl {events : Events} {handler : H} {resources : Bool}
    (hio : events.hasIoEvent = true)
    (h : r.registerImpl .ioEvent ioSource events handler resources = (r', .ok tag)) :
    r.kernel.interest ioSource = none := by
  obtain ⟨-, used, kernel, hadd, -⟩ := epollAdd_of_registerImpl hio h
  unfold Kernel.epollAdd at hadd
  split_ifs at hadd with hclosed hlisted
  simpa using hlisted

/-- A failed registration changes at most the end of the entries in use. -/
theorem registerImpl_error {regType : EventRegistrationType} {events : Events} {handler : H}
    {resources : Bool} {ec : ErrorCode}
    (h : r.registerImpl regType ioSource events handler resources = (r', .error ec)) :
    ∃ used, r' = { r with usedOperationsEnd := used } := by
  rcases hfind : r.findFreeOperationSlot ioSource with ⟨r₁, slot⟩
  obtain ⟨⟨used, rfl⟩, -⟩ := findFreeOperationSlot_spec hfind
  simp only [registerImpl, hfind] at h
  split at h
  · obtain ⟨rfl, -⟩ := Prod.mk.inj h
    exact ⟨used, rfl⟩
  · split at h
    · obtain ⟨rfl, -⟩ := Prod.mk.inj h
      exact ⟨used, rfl⟩
    · cases (Prod.mk.inj h).2

/-! ## Deregistration -/

/-- Deregistering an entry that is not valid is refused. -/
theorem derigsterImpl_of_not_valid (hvalid : (r.operations tag).valid = false)
    (closeOnDeregister : Bool) :
    r.derigsterImpl tag closeOnDeregister = (r, .error .reactorEntryInvalid) := by
  simp [derigsterImpl, hvalid]

/-- Deregistering a valid entry whose descriptor is in the interest list, in one equation. -/
theorem derigsterImpl_eq (hvalid : (r.operations tag).valid = true)
    (hopen : r.kernel.isOpen (r.operations tag).ioSource = true)
    (hint : (r.kernel.interest (r.operations tag).ioSource).isSome = true)
    (closeOnDeregister : Bool) :
    r.derigsterImpl tag closeOnDeregister =
      ({ r with kernel := {
          isOpen := if !(r.operations tag).executionInProgress && closeOnDeregister
            then Function.update r.kernel.isOpen (r.operations tag).ioSource false
            else r.kernel.isOpen
          interest := Function.update r.kernel.interest (r.operations tag).ioSource none }
        }.setEntry tag { r.operations tag with
          handler := if (r.operations tag).executionInProgress then (r.operations tag).handler
            else none
          releaseHandlerMemory := (r.operations tag).releaseHandlerMemory ||
            (r.operations tag).executionInProgress
          closeIoSource := (r.operations tag).closeIoSource ||
            ((r.operations tag).executionInProgress && closeOnDeregister)
          valid := false }, .ok ()) := by
  cases hexec : (r.operations tag).executionInProgress with
  | true => simp [derigsterImpl, hvalid, hexec, Kernel.epollRemove_eq hopen hint]
  | false =>
    cases closeOnDeregister <;>
      simp [derigsterImpl, hvalid, hexec, Kernel.epollRemove_eq hopen hint, Kernel.closeFd]

/-- Deregistering and closing an idle entry closes its descriptor and releases its handler. -/
theorem derigsterImpl_idle (hvalid : (r.operations tag).valid = true)
    (hidle : (r.operations tag).executionInProgress = false)
    (hopen : r.kernel.isOpen (r.operations tag).ioSource = true)
    (hint : (r.kernel.interest (r.operations tag).ioSource).isSome = true) :
    r.derigsterImpl tag true =
      ({ r with kernel := r.kernel.closeFd (r.operations tag).ioSource }.setEntry tag
        { r.operations tag with handler := none, valid := false }, .ok ()) := by
  simp [derigsterImpl, hvalid, hidle, Kernel.epollRemove_eq hopen hint, Kernel.closeFd]

/-- Deregistering and closing an entry whose handler is executing leaves the rest to its operation.
-/
theorem derigsterImpl_executing (hvalid : (r.operations tag).valid = true)
    (hexec : (r.operations tag).executionInProgress = true)
    (hopen : r.kernel.isOpen (r.operations tag).ioSource = true)
    (hint : (r.kernel.interest (r.operations tag).ioSource).isSome = true) :
    r.derigsterImpl tag true =
      ({ r with kernel := { r.kernel with
          interest := Function.update r.kernel.interest (r.operations tag).ioSource none }
        }.setEntry tag { r.operations tag with
          releaseHandlerMemory := true, closeIoSource := true, valid := false }, .ok ()) := by
  simp [derigsterImpl, hvalid, hexec, Kernel.epollRemove_eq hopen hint]

/-- A successful deregistration was made on a valid entry. It takes the handler out of an idle
entry, and leaves it to the operation of an executing one. -/
theorem derigsterImpl_cases {closeOnDeregister : Bool}
    (h : r.derigsterImpl tag closeOnDeregister = (r', .ok ())) :
    (r.operations tag).valid = true ∧
    ((r.operations tag).executionInProgress = false ∧ (∃ kernel,
        r' = { r with kernel }.setEntry tag { r.operations tag with
          handler := none, valid := false }) ∨
      (r.operations tag).executionInProgress = true ∧ ∃ kernel,
        r' = { r with kernel }.setEntry tag { r.operations tag with
          releaseHandlerMemory := true
          closeIoSource := (r.operations tag).closeIoSource || closeOnDeregister
          valid := false }) := by
  simp only [derigsterImpl] at h
  split at h
  · cases (Prod.mk.inj h).2
  · rename_i hvalid
    refine ⟨by simpa using hvalid, ?_⟩
    split at h
    · cases (Prod.mk.inj h).2
    · split at h
      · rename_i hidle
        exact .inl ⟨by simpa using hidle, _, (Prod.mk.inj h).1.symm⟩
      · rename_i hexec
        exact .inr ⟨by simpa using hexec, _, (Prod.mk.inj h).1.symm⟩

/-- A successful deregistration was made on a valid entry and makes it invalid; whatever else it
changes, it leaves the posted flag, the ongoing flag and the other entries alone. -/
theorem derigsterImpl_ok {closeOnDeregister : Bool}
    (h : r.derigsterImpl tag closeOnDeregister = (r', .ok ())) :
    (r.operations tag).valid = true ∧ ∃ kernel handler release close,
      r' = { r with kernel }.setEntry tag { r.operations tag with
        handler, releaseHandlerMemory := release, closeIoSource := close, valid := false } := by
  obtain ⟨hvalid, ⟨-, kernel, rfl⟩ | ⟨-, kernel, rfl⟩⟩ := derigsterImpl_cases h
  · exact ⟨hvalid, kernel, _, _, _, rfl⟩
  · exact ⟨hvalid, kernel, _, _, _, rfl⟩

/-- A refused deregistration changes nothing. -/
theorem derigsterImpl_error {closeOnDeregister : Bool} {ec : ErrorCode}
    (h : r.derigsterImpl tag closeOnDeregister = (r', .error ec)) : r' = r := by
  simp only [derigsterImpl] at h
  split at h
  · exact (Prod.mk.inj h).1.symm
  · split at h
    · exact (Prod.mk.inj h).1.symm
    · split at h <;> cases (Prod.mk.inj h).2

/-- After a successful deregistration the entry is not valid. -/
theorem derigsterImpl_valid (hvalid : (r.operations tag).valid = true)
    (hopen : r.kernel.isOpen (r.operations tag).ioSource = true)
    (hint : (r.kernel.interest (r.operations tag).ioSource).isSome = true) :
    ((r.derigsterImpl tag true).1.operations tag).valid = false ∧
      (r.derigsterImpl tag true).2 = .ok () := by
  cases hexec : (r.operations tag).executionInProgress with
  | false => simp [derigsterImpl_idle hvalid hexec hopen hint]
  | true => simp [derigsterImpl_executing hvalid hexec hopen hint]

/-! ## Operations -/

/-- Starting an operation changes the monitored events and the ongoing flag of the entry, and adds a
job if no operation was ongoing. -/
theorem markOperationStarted_eq (r : EpollReactor H) (tag : HandlerTag) (opType : Events) :
    r.markOperationStarted tag opType =
      { r with jobCount := if (r.operations tag).asyncOperationOngoing then r.jobCount
          else Executor.fetchAdd r.jobCount 1 }.setEntry tag { r.operations tag with
        monitoredEvents := (r.operations tag).monitoredEvents.union opType
        asyncOperationOngoing := true } := by
  unfold markOperationStarted
  cases h : (r.operations tag).asyncOperationOngoing <;>
    simp [h, onJobArrival, setEntry]

theorem markOperationStarted_operations (r : EpollReactor H) (tag : HandlerTag) (opType : Events) :
    (r.markOperationStarted tag opType).operations =
      Function.update r.operations tag { r.operations tag with
        monitoredEvents := (r.operations tag).monitoredEvents.union opType
        asyncOperationOngoing := true } := by
  rw [markOperationStarted_eq]
  rfl

theorem markOperationStarted_kernel (r : EpollReactor H) (tag : HandlerTag) (opType : Events) :
    (r.markOperationStarted tag opType).kernel = r.kernel := by
  rw [markOperationStarted_eq]
  rfl

/-- `OnStartOfOperation()` is that, and perhaps a new mask for an interest that exists. -/
theorem onStartOfOperation_eq (r : EpollReactor H) (tag : HandlerTag) (opType : Events)
    (resources : Bool) :
    ∃ interest, (∀ fd, (r.kernel.interest fd).isSome = true → (interest fd).isSome = true) ∧
      r.onStartOfOperation tag opType resources =
        { r.markOperationStarted tag opType with kernel := { r.kernel with interest } } := by
  have hkernel := r.markOperationStarted_kernel tag opType
  simp only [onStartOfOperation]
  split
  · split
    -- the mask of a descriptor of the interest list is replaced
    · rename_i kernel hmod
      rw [hkernel] at hmod
      refine ⟨kernel.interest, fun fd hfd => ?_, ?_⟩
      · rw [Kernel.eq_of_epollModify hmod]
        by_cases hio : fd = ((r.markOperationStarted tag opType).operations tag).ioSource
        · subst hio; simp
        · simpa [Function.update_of_ne hio] using hfd
      · rw [Kernel.eq_of_epollModify hmod]
    -- the failure of the update is only logged
    · exact ⟨r.kernel.interest, fun _ h => h, by rw [← hkernel]⟩
  · exact ⟨r.kernel.interest, fun _ h => h, by rw [← hkernel]⟩

/-- Starting an operation adds its events to the monitored events of the entry. -/
theorem onStartOfOperation_entry (r : EpollReactor H) (tag : HandlerTag) (opType : Events)
    (resources : Bool) :
    (r.onStartOfOperation tag opType resources).operations tag =
      { r.operations tag with
        monitoredEvents := (r.operations tag).monitoredEvents.union opType
        asyncOperationOngoing := true } := by
  obtain ⟨interest, -, heq⟩ := onStartOfOperation_eq r tag opType resources
  rw [heq, markOperationStarted_operations, Function.update_self]

/-- The entry after an event that was ignored. -/
theorem onEventIgnored_entry (r : EpollReactor H) (tag : HandlerTag) (ev : Events) :
    (r.onEventIgnored tag ev).operations tag = { r.operations tag with
      monitoredEvents := (r.operations tag).monitoredEvents.union ev } := by
  simp [onEventIgnored, onJobArrival]

/-- `HandleSingleEvent()` records the captured events, and posts the entry if it reports them. -/
theorem handleSingleEvent_eq (r : EpollReactor H) (event : EpollEvent)
    (opQueue : List Operation) :
    ∃ posted, r.handleSingleEvent event opQueue =
      (r.setEntry event.tag { r.operations event.tag with
        capturedEvents := Events.ofMask event.events
        handlerPosted := (r.operations event.tag).handlerPosted || posted },
      opQueue ++ if posted then [.ioEvent event.tag] else []) ∧
    (posted = true → (r.operations event.tag).valid = true ∧
      (r.operations event.tag).handlerPosted = false) := by
  simp only [handleSingleEvent]
  -- the three reasons not to post: deregistered, posted already, nothing to report
  split
  · exact ⟨false, by simp, by simp⟩
  rename_i hvalid
  split
  · exact ⟨false, by simp, by simp⟩
  rename_i hposted
  split
  · exact ⟨false, by simp, by simp⟩
  · exact ⟨true, by simp, fun _ => ⟨by simpa using hvalid, by simpa using hposted⟩⟩

/-- The operation of an entry that is not valid does nothing. -/
theorem beginOperation_of_not_valid (hvalid : (r.operations tag).valid = false) :
    r.beginOperation tag = (r, none) := by
  simp [beginOperation, hvalid]

/-- The operation of a valid entry with events to report consumes them and calls the handler. -/
theorem beginOperation_of_report (hvalid : (r.operations tag).valid = true)
    (hreport : ((r.operations tag).capturedEvents.intersection
      (r.operations tag).monitoredEvents).empty = false) :
    r.beginOperation tag = (r.setEntry tag { r.operations tag with
        monitoredEvents := (r.operations tag).monitoredEvents.consume
          ((r.operations tag).capturedEvents.intersection (r.operations tag).monitoredEvents)
        asyncOperationOngoing := false
        executionInProgress := true },
      some ((r.operations tag).handler, (r.operations tag).capturedEvents.intersection
        (r.operations tag).monitoredEvents)) := by
  simp [beginOperation, hvalid, hreport]

/-- The operation of a valid entry without events to report only cleans up. -/
theorem beginOperation_of_empty (hvalid : (r.operations tag).valid = true)
    (hempty : ((r.operations tag).capturedEvents.intersection
      (r.operations tag).monitoredEvents).empty = true) :
    r.beginOperation tag = (r.cleanupOperation tag, none) := by
  simp [beginOperation, hvalid, hempty]

/-- What an operation does first. -/
theorem beginOperation_cases (r : EpollReactor H) (tag : HandlerTag) :
    ((r.operations tag).valid = false ∧ r.beginOperation tag = (r, none)) ∨
    ((r.operations tag).valid = true ∧ r.beginOperation tag = (r.cleanupOperation tag, none)) ∨
    (r.operations tag).valid = true ∧
      r.beginOperation tag = (r.setEntry tag { r.operations tag with
          monitoredEvents := (r.operations tag).monitoredEvents.consume
            ((r.operations tag).capturedEvents.intersection (r.operations tag).monitoredEvents)
          asyncOperationOngoing := false
          executionInProgress := true },
        some ((r.operations tag).handler, (r.operations tag).capturedEvents.intersection
          (r.operations tag).monitoredEvents)) := by
  cases hvalid : (r.operations tag).valid with
  | false => exact .inl ⟨rfl, beginOperation_of_not_valid hvalid⟩
  | true =>
    cases hempty : ((r.operations tag).capturedEvents.intersection
        (r.operations tag).monitoredEvents).empty with
    | true => exact .inr (.inl ⟨rfl, beginOperation_of_empty hvalid hempty⟩)
    | false => exact .inr (.inr ⟨rfl, beginOperation_of_report hvalid hempty⟩)

/-- The entry after the cleanup of its operation. -/
theorem cleanupOperation_entry (r : EpollReactor H) (tag : HandlerTag) :
    (r.cleanupOperation tag).operations tag = { r.operations tag with
      handler := if (r.operations tag).releaseHandlerMemory then none
        else (r.operations tag).handler
      releaseHandlerMemory := false
      closeIoSource := false
      handlerPosted := false } := by
  simp [cleanupOperation]

/-- The end of an operation makes the entry idle and not posted; it completes deferred work of the
entry and leaves its registration and the ongoing flag alone. -/
theorem finishOperation_eq (r : EpollReactor H) (tag : HandlerTag) :
    r.finishOperation tag =
      { r with kernel := if (r.operations tag).closeIoSource
          then r.kernel.closeFd (r.operations tag).ioSource else r.kernel }.setEntry tag
        { r.operations tag with
          executionInProgress := false
          handler := if (r.operations tag).releaseHandlerMemory then none
            else (r.operations tag).handler
          releaseHandlerMemory := false
          closeIoSource := false
          handlerPosted := false } := by
  simp [finishOperation, cleanupOperation, setEntry]

end Asrt.Reactor.EpollReactor
