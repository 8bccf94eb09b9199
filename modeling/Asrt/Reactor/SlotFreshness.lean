import Asrt.Reactor.SlotReuse

/-!
# What the new occupant of a slot inherits

`slot_reuse_fresh_iff` proves that the new occupants of a slot behave alike after two histories if
and only if they inherit the same. One direction is the simulation of `SlotReuse`. For the other one
there is a sequence of calls for each inherited value that brings it out.
-/

namespace Asrt.Reactor.SlotReuse

variable {H : Type} {r r' : EpollReactor H} {source : Source} {handler : H} {tag : HandlerTag}
  {resources : Bool}

/-- The events that the entry of a registration monitors. -/
def Source.monitoredEvents : Source → Events
  | io _ events _ => events.add (EPOLLIN ||| EPOLLPRI)
  | oneShotSoftwareEvent => .oneShotSoftwareEvent
  | persistentSoftwareEvent => .persistentSoftwareEvent

/-- The descriptor in the entry of a registration. -/
def Source.ioSource : Source → NativeHandle
  | io ioSource _ _ => ioSource
  | oneShotSoftwareEvent | persistentSoftwareEvent => kInvalidNativeHandle

/-- What is registered is a one-shot event. -/
def Source.isOneShot : Source → Bool
  | oneShotSoftwareEvent => true
  | io _ _ _ | persistentSoftwareEvent => false

/-- The entry after a registration. -/
def Source.entry (source : Source) (e : OperationEntry H) (handler : H) : OperationEntry H :=
  { e with
    isSoftwareEventOneshot := e.isSoftwareEventOneshot || source.isOneShot
    ioSource := source.ioSource
    handler := some handler
    valid := true
    monitoredEvents := source.monitoredEvents
    capturedEvents := {}
    handlerPosted := false }

/-- A registration writes its entry. The descriptor of an I/O source is open and in the interest
list. -/
theorem Source.register_ok (h : source.register r handler resources = (r', .ok tag)) :
    r'.operations tag = source.entry (r.operations tag) handler ∧
    r'.triggeredSoftwareEvents = r.triggeredSoftwareEvents ∧
    (source.isIo = true → r'.kernel.isOpen source.ioSource = true ∧
      r'.kernel.interest source.ioSource = some ⟨source.monitoredEvents.eventMask, tag⟩) := by
  -- software events are not added to the interest list
  have hsoftware {regType : EventRegistrationType} {events : Events} (htype : regType ≠ .ioEvent)
      (h : r.registerImpl regType kInvalidNativeHandle events handler resources = (r', .ok tag)) :
      r'.operations tag = { r.operations tag with
        isSoftwareEventOneshot := (r.operations tag).isSoftwareEventOneshot ||
          decide (regType = .oneShotSoftwareEvent)
        ioSource := kInvalidNativeHandle
        handler := some handler
        valid := true
        monitoredEvents := events
        capturedEvents := {}
        handlerPosted := false } ∧
      r'.triggeredSoftwareEvents = r.triggeredSoftwareEvents := by
    rcases hfind : r.findFreeOperationSlot kInvalidNativeHandle with ⟨r₁, slot⟩
    obtain ⟨⟨used, rfl⟩, -⟩ := EpollReactor.findFreeOperationSlot_spec hfind
    simp only [EpollReactor.registerImpl, hfind, htype, false_and, if_false] at h
    cases slot with
    | error ec => cases (Prod.mk.inj h).2
    | ok slot =>
      obtain ⟨rfl, htag⟩ := Prod.mk.inj h
      obtain rfl := Except.ok.inj htag
      exact ⟨by simp, rfl⟩
  cases source with
  | io ioSource events hio =>
    have hopen := EpollReactor.isOpen_of_registerImpl hio h
    obtain ⟨-, -, -, used, rfl⟩ := EpollReactor.registerImpl_ok hio h
    refine ⟨?_, rfl, fun _ => ⟨hopen, Function.update_self _ _ _⟩⟩
    simp [EpollReactor.registeredEntry, Source.entry, Source.isOneShot, Source.ioSource,
      Source.monitoredEvents]
  | oneShotSoftwareEvent =>
    simp only [Source.register] at h
    obtain ⟨hentry, htriggers⟩ := hsoftware (by simp) h
    exact ⟨hentry.trans (by simp [Source.entry, Source.isOneShot, Source.ioSource,
      Source.monitoredEvents]), htriggers, by simp [Source.isIo]⟩
  | persistentSoftwareEvent =>
    simp only [Source.register] at h
    obtain ⟨hentry, htriggers⟩ := hsoftware (by simp) h
    exact ⟨hentry.trans (by simp [Source.entry, Source.isOneShot, Source.ioSource,
      Source.monitoredEvents]), htriggers, by simp [Source.isIo]⟩

/-! ## The same inheritance -/

/-- Two histories that leave the same to a registration cannot be told apart by it. -/
theorem observations_eq_of_inherited {r₁ r₂ r₁' r₂' : EpollReactor H}
    (h₁ : source.register r₁ handler resources = (r₁', .ok tag))
    (h₂ : source.register r₂ handler resources = (r₂', .ok tag))
    (h : inherited source r₁ tag = inherited source r₂ tag) (calls : List Call) :
    Slot.observations ⟨source.isIo, tag, r₁', [], []⟩ calls =
      Slot.observations ⟨source.isIo, tag, r₂', [], []⟩ calls := by
  obtain ⟨hentry₁, htriggers₁, hkernel₁⟩ := Source.register_ok h₁
  obtain ⟨hentry₂, htriggers₂, hkernel₂⟩ := Source.register_ok h₂
  -- a relation that the calls keep and that holds after the registrations
  have hsimulation (R : Slot H → EpollReactor H → Prop)
      (hstep : ∀ s r, R s r → ∀ call, Slot.RespondAlike R s r call)
      (hinit : R ⟨source.isIo, tag, r₁', [], []⟩ r₂') :
      Slot.observations ⟨source.isIo, tag, r₁', [], []⟩ calls =
        Slot.observations ⟨source.isIo, tag, r₂', [], []⟩ calls := by
    refine ToMathlib.Responder.outputs_eq_of_simulation
      (R := fun s t => ∃ r, t = { s with reactor := r } ∧ R s r) ?_ ⟨r₂', rfl, hinit⟩ calls
    rintro s t call ⟨r, rfl, hsr⟩
    rcases hstep s r hsr call with hnone | ⟨s₁, r₁, b, hs, hr, hR⟩
    · exact .inl hnone
    · exact .inr ⟨s₁, _, b, hs, hr, r₁, rfl, hR⟩
  cases source with
  | io ioSource events hio =>
    obtain ⟨hongoing, hprogress, hflag, hrelease, hclose, htriggers⟩ := Inherited.mk.inj h
    refine hsimulation Slot.IoAlike (fun _ _ => Slot.IoAlike.respond) ?_
    refine ⟨rfl, ?_, ?_, ?_, (r₂.operations tag).isSoftwareEventOneshot, ?_, ?_⟩
    · simp only [Slot.triggers, htriggers₁, htriggers₂, htriggers]
    · simp only [Slot.entry, hentry₁]
      exact (hkernel₂ rfl).1.trans (hkernel₁ rfl).1.symm
    · simp only [Slot.entry, hentry₁]
      exact (hkernel₂ rfl).2.trans (hkernel₁ rfl).2.symm
    · simp [Slot.entry, hentry₁, hentry₂, Source.entry, Source.isOneShot, hongoing, hprogress,
        hrelease, hclose]
    · simp only [Slot.entry, hentry₁, Source.entry, Source.isOneShot, Bool.or_false]
      -- without a recorded trigger no software operation comes to run on the entry
      by_cases hpos : 0 < r₁.triggeredSoftwareEvents.count tag
      · rw [decide_eq_true hpos, decide_eq_true (htriggers ▸ hpos), Bool.true_and,
          Bool.true_and] at hflag
        exact .inl hflag.symm
      · refine .inr fun hactive => ?_
        simp only [Slot.SoftwareActive, Slot.triggers, htriggers₁] at hactive
        simp [hpos] at hactive
  | oneShotSoftwareEvent =>
    obtain ⟨-, hprogress, -, -, -, htriggers⟩ := Inherited.mk.inj h
    refine hsimulation Slot.SoftwareAlike (fun _ _ => Slot.SoftwareAlike.respond) ?_
    refine ⟨rfl, ?_, by simp, by simp, (r₂.operations tag).asyncOperationOngoing,
      (r₂.operations tag).releaseHandlerMemory, (r₂.operations tag).closeIoSource, ?_, .inr ?_⟩
    · simp only [Slot.triggers, htriggers₁, htriggers₂, htriggers]
    · simp [Slot.entry, hentry₁, hentry₂, Source.entry, Source.isOneShot, hprogress]
    · simp [Slot.entry, hentry₁, Source.entry, Source.isOneShot]
  | persistentSoftwareEvent =>
    obtain ⟨-, hprogress, hflag, hrelease, -, htriggers⟩ := Inherited.mk.inj h
    refine hsimulation Slot.SoftwareAlike (fun _ _ => Slot.SoftwareAlike.respond) ?_
    refine ⟨rfl, ?_, by simp, by simp, (r₂.operations tag).asyncOperationOngoing,
      (r₂.operations tag).releaseHandlerMemory, (r₂.operations tag).closeIoSource, ?_, ?_⟩
    · simp only [Slot.triggers, htriggers₁, htriggers₂, htriggers]
    · simp [Slot.entry, hentry₁, hentry₂, Source.entry, Source.isOneShot, hprogress, hflag]
    · simp only [Slot.entry, hentry₁, Source.entry, Source.isOneShot, Bool.or_false]
      cases hone : (r₁.operations tag).isSoftwareEventOneshot with
      | true => exact .inr rfl
      | false =>
        rw [← hflag, hone, Bool.not_false, Bool.true_and, Bool.true_and] at hrelease
        exact .inl hrelease.symm

/-! ## Calls that bring out what was inherited -/

/-- A slot whose registration has just been made. -/
structure Slot.New (s : Slot H) (handler : H) : Prop where
  queued : s.queued = []
  executing : s.executing = []
  valid : s.entry.valid = true
  posted : s.entry.handlerPosted = false
  handler : s.entry.handler = some handler
  isOpen : s.isIo = true → s.reactor.kernel.isOpen s.entry.ioSource = true
  interest : s.isIo = true → (s.reactor.kernel.interest s.entry.ioSource).isSome = true
  read : s.isIo = true → s.entry.monitoredEvents.hasReadEvent = true
  software : s.isIo = false → s.entry.monitoredEvents.hasSoftwareEvent = true

/-- A registration makes its slot new. -/
theorem Source.new_of_register (h : source.register r handler resources = (r', .ok tag)) :
    Slot.New ⟨source.isIo, tag, r', [], []⟩ handler := by
  obtain ⟨hentry, -, hkernel⟩ := Source.register_ok h
  refine ⟨rfl, rfl, ?_, ?_, ?_, ?_, ?_, ?_, ?_⟩ <;> simp only [Slot.entry, hentry, Source.entry]
  · exact fun hio => (hkernel hio).1
  · intro hio
    rw [(hkernel hio).2]
    rfl
  · intro hio
    cases source with
    | io ioSource events _ =>
      simp [Source.monitoredEvents, Events.hasReadEvent_eq, Events.add, EPOLLIN, EPOLLPRI]
    | oneShotSoftwareEvent | persistentSoftwareEvent => cases hio
  · intro hio
    cases source with
    | io _ _ _ => cases hio
    | oneShotSoftwareEvent | persistentSoftwareEvent => rfl

namespace Slot

variable {s s₁ : Slot H}

theorem observations_nil (s : Slot H) : s.observations [] = some [] := rfl

/-- What a sequence of calls shows, call by call. -/
theorem observations_cons {call : Call} {calls : List Call} {b : Observation H}
    {bs : List (Observation H)} (h : s.respond call = some (s₁, b))
    (hrest : s₁.observations calls = some bs) :
    s.observations (call :: calls) = some (b :: bs) := by
  simp only [observations] at hrest
  simp [observations, ToMathlib.Responder.outputs, h, hrest]

/-- `HandleSoftwareEvents()` posts an operation for each recorded trigger. -/
theorem New.observations_handleSoftwareEvents (h : s.New handler) :
    ∃ b, s.observations [.handleSoftwareEvents] = some [b] ∧
      b.posted = List.replicate s.triggers (.softwareEvent s.tag) := by
  obtain ⟨r₁, handled, heq, -⟩ :=
    handleSoftwareEventsLoop_replicate s.tag s.triggers s.reactor [] 0
  rw [if_pos h.valid] at heq
  exact ⟨_, observations_cons (respond_handleSoftwareEvents heq) (observations_nil _), rfl⟩

/-- The first operation of an I/O source is reported unless one is ongoing. -/
theorem New.observations_start (hio : s.isIo = true) :
    ∃ b, s.observations [.start .kRead true] = some [b] ∧
      b.arrivals = if s.entry.asyncOperationOngoing then 0 else 1 := by
  refine ⟨_, observations_cons (respond_start hio rfl) (observations_nil _), ?_⟩
  obtain ⟨interest, -, heq⟩ := onStartOfOperation_interest s.reactor s.tag .kRead true
  have hjobs := jobs_of_start (s.reactor.operations s.tag).asyncOperationOngoing s.reactor.jobCount
  simp only [observe, heq]
  refine (arrivals_eq hjobs).trans ?_
  cases (s.reactor.operations s.tag).asyncOperationOngoing <;> rfl

/-- A deregistration releases the handler of an idle entry. -/
theorem New.observations_deregister (h : s.New handler) :
    ∃ b, s.observations [.deregister false] = some [b] ∧
      b.released = if s.entry.executionInProgress then none else some handler := by
  have hhandler := h.handler
  simp only [Slot.entry] at hhandler
  by_cases hio : s.isIo = true
  · have heq := EpollReactor.derigsterImpl_eq h.valid (h.isOpen hio) (h.interest hio) false
    refine ⟨_, observations_cons (respond_deregister ((if_pos hio).trans heq))
      (observations_nil _), ?_⟩
    simp only [observe, Slot.entry, EpollReactor.setEntry_operations, Function.update_self,
      hhandler]
    cases (s.reactor.operations s.tag).executionInProgress <;> rfl
  · have heq := EpollReactor.deregisterSoftwareEvent_eq h.valid
    refine ⟨_, observations_cons (respond_deregister ((if_neg hio).trans heq))
      (observations_nil _), ?_⟩
    simp only [observe, Slot.entry, EpollReactor.setEntry_operations, Function.update_self,
      hhandler]
    cases (s.reactor.operations s.tag).executionInProgress <;> rfl

/-- The first operation of an I/O source releases the handler and closes the descriptor if an
earlier deregistration has left that to it. -/
theorem New.observations_operation (h : s.New handler) (hio : s.isIo = true) :
    ∃ b₁ b₂ b, s.observations [.event EPOLLIN, .begin, .finish] = some [b₁, b₂, b] ∧
      b.released = (if s.entry.releaseHandlerMemory then some handler else none) ∧
      b.closed = s.entry.closeIoSource := by
  have hhandler := h.handler
  have hopen := h.isOpen hio
  simp only [Slot.entry] at hhandler hopen
  -- every I/O source is monitored for reading, so the event is reported
  have hempty : ((Events.ofMask EPOLLIN).intersection s.entry.monitoredEvents).empty = false := by
    apply Events.empty_of_hasReadEvent
    rw [Events.hasReadEvent_intersection, h.read hio]
    rfl
  have hevent := EpollReactor.handleSingleEvent_of_reports
    (show s.reactor.Reports ⟨EPOLLIN, s.tag⟩ from ⟨h.valid, h.posted, hempty⟩) []
  have hbegin := EpollReactor.beginOperation_of_report (r := s.reactor.setEntry s.tag
      { s.reactor.operations s.tag with
        capturedEvents := Events.ofMask EPOLLIN, handlerPosted := true })
    (show _ = true by rw [EpollReactor.setEntry_operations, Function.update_self]; exact h.valid)
    (show _ = false by
      simp only [EpollReactor.setEntry_operations, Function.update_self]; exact hempty)
  refine ⟨_, _, _, observations_cons (respond_event hio hevent) (observations_cons
    (respond_begin_some (by simp) hbegin) (observations_cons (respond_finish (by simp)
      (EpollReactor.finishOperation_eq _ _)) (observations_nil _))), ?_, ?_⟩
  · simp only [observe, Slot.entry, EpollReactor.setEntry_operations, Function.update_self,
      hhandler]
    cases (s.reactor.operations s.tag).releaseHandlerMemory <;> rfl
  · simp only [observe, Slot.entry, EpollReactor.setEntry_operations, EpollReactor.setEntry_kernel,
      Function.update_self, hopen]
    cases (s.reactor.operations s.tag).closeIoSource <;> simp [Kernel.closeFd, hopen]

/-- The operation of a software event in a slot whose triggers were recorded: it releases the
handler if that was left to it, and makes a slot with the flag of one-shot events free. -/
theorem New.observations_software (h : s.New handler) (hpos : 0 < s.triggers) :
    ∃ b₁ b₂ b₃ b, s.observations [.handleSoftwareEvents, .beginSoftware, .finishSoftware,
        .deregister true] = some [b₁, b₂, b₃, b] ∧
      b₃.released = (if s.entry.isSoftwareEventOneshot || s.entry.releaseHandlerMemory
        then some handler else none) ∧
      b.result =
        if s.entry.isSoftwareEventOneshot then .error .reactorEntryInvalid else .ok () := by
  obtain ⟨r₁, handled, heq, he, hkernel, -⟩ :=
    handleSoftwareEventsLoop_replicate s.tag s.triggers s.reactor [] 0
  rw [if_pos h.valid, List.nil_append] at heq
  have hhandler := h.handler
  have hvalid := h.valid
  simp only [Slot.entry] at hhandler hvalid
  have hmem : Operation.softwareEvent s.tag ∈
      s.queued ++ List.replicate s.triggers (.softwareEvent s.tag) := by
    simp [Nat.pos_iff_ne_zero.mp hpos]
  -- the entry after the operation
  have hentry : ((r₁.beginSoftwareOperation s.tag).finishSoftwareOperation s.tag).operations s.tag =
      { s.reactor.operations s.tag with
        executionInProgress := false
        handler := if (s.reactor.operations s.tag).isSoftwareEventOneshot ∨
            (s.reactor.operations s.tag).releaseHandlerMemory then none else some handler
        releaseHandlerMemory := false
        valid := !(s.reactor.operations s.tag).isSoftwareEventOneshot
        handlerPosted := false } := by
    simp [EpollReactor.finishSoftwareOperation_eq, EpollReactor.beginSoftwareOperation, he, hvalid,
      hhandler]
  have hkernel' : ((r₁.beginSoftwareOperation s.tag).finishSoftwareOperation s.tag).kernel =
      s.reactor.kernel := by
    rw [EpollReactor.finishSoftwareOperation_eq]
    exact hkernel
  -- the deregistration finds the entry invalid if the operation took it for a one-shot event
  have hderegister {r₂ : EpollReactor H} (hkernel : r₂.kernel = s.reactor.kernel)
      (hsource : (r₂.operations s.tag).ioSource = s.entry.ioSource)
      (hvalid : (r₂.operations s.tag).valid = !s.entry.isSoftwareEventOneshot) :
      ∃ r₃, (if s.isIo then r₂.derigsterImpl s.tag true else r₂.deregisterSoftwareEvent s.tag) =
        (r₃, if s.entry.isSoftwareEventOneshot then .error .reactorEntryInvalid else .ok ()) := by
    cases hflag : s.entry.isSoftwareEventOneshot with
    | true =>
      rw [hflag, Bool.not_true] at hvalid
      refine ⟨r₂, ?_⟩
      split
      · exact EpollReactor.derigsterImpl_of_not_valid hvalid true
      · simp [EpollReactor.deregisterSoftwareEvent, hvalid]
    | false =>
      rw [hflag, Bool.not_false] at hvalid
      split
      · rename_i hio
        refine ⟨_, EpollReactor.derigsterImpl_eq hvalid ?_ ?_ true⟩
        · rw [hkernel, hsource]
          exact h.isOpen hio
        · rw [hkernel, hsource]
          exact h.interest hio
      · exact ⟨_, EpollReactor.deregisterSoftwareEvent_eq hvalid⟩
  obtain ⟨r₃, heq₃⟩ := hderegister hkernel' (by rw [hentry]) (by rw [hentry])
  refine ⟨_, _, _, _, observations_cons (respond_handleSoftwareEvents heq) (observations_cons
    (respond_beginSoftware hmem) (observations_cons (respond_finishSoftware (by simp) rfl)
      (observations_cons (respond_deregister heq₃) (observations_nil _)))), ?_, rfl⟩
  have hrunning : ((r₁.beginSoftwareOperation s.tag).operations s.tag).handler = some handler := by
    simp [EpollReactor.beginSoftwareOperation, he, hhandler]
  simp only [observe, Slot.entry, hentry, hrunning]
  cases (s.reactor.operations s.tag).isSoftwareEventOneshot <;>
    cases (s.reactor.operations s.tag).releaseHandlerMemory <;> rfl

/-- A trigger of a software event is recorded and changes nothing else. -/
theorem New.trigger (h : s.New handler) (hio : s.isIo = false) :
    ∃ s₁ b, s.respond .trigger = some (s₁, b) ∧ s₁.New handler ∧ 0 < s₁.triggers ∧
      s₁.entry = s.entry := by
  have hcan : s.reactor.canTriggerSoftwareEvent s.tag = true := by
    rw [EpollReactor.canTriggerSoftwareEvent, Bool.and_eq_true]
    exact ⟨h.valid, h.software hio⟩
  refine ⟨_, _, respond_trigger hio (if_pos hcan), ?_, ?_, rfl⟩
  · exact ⟨h.queued, h.executing, h.valid, h.posted, h.handler, h.isOpen, h.interest, h.read,
      h.software⟩
  · simp [Slot.triggers]

/-- What the operation of a software event shows after a trigger. -/
theorem New.observations_trigger (h : s.New handler) (hio : s.isIo = false) :
    ∃ b₀ b₁ b₂ b₃ b, s.observations [.trigger, .handleSoftwareEvents, .beginSoftware,
        .finishSoftware, .deregister true] = some [b₀, b₁, b₂, b₃, b] ∧
      b₃.released = (if s.entry.isSoftwareEventOneshot || s.entry.releaseHandlerMemory
        then some handler else none) ∧
      b.result =
        if s.entry.isSoftwareEventOneshot then .error .reactorEntryInvalid else .ok () := by
  obtain ⟨s₁, b₀, hrespond, hnew, hpos, hentry⟩ := h.trigger hio
  obtain ⟨b₁, b₂, b₃, b, hobs, hreleased, hresult⟩ := hnew.observations_software hpos
  rw [hentry] at hreleased hresult
  exact ⟨b₀, b₁, b₂, b₃, b, observations_cons hrespond hobs, hreleased, hresult⟩

end Slot

/-! ## Two histories -/

/-- Flags that give the same choice between two different values are equal. -/
theorem eq_of_ite_eq {α : Type} {a b : Bool} {x y : α} (hxy : x ≠ y)
    (h : (if a then x else y) = if b then x else y) : a = b := by
  cases a <;> cases b
  · rfl
  · exact absurd h.symm hxy
  · exact absurd h hxy
  · rfl

section Histories

variable {r₁ r₂ r₁' r₂' : EpollReactor H}

/-- Registrations that cannot be told apart have inherited the same. -/
theorem inherited_eq_of_observations (h₁ : source.register r₁ handler resources = (r₁', .ok tag))
    (h₂ : source.register r₂ handler resources = (r₂', .ok tag))
    (h : ∀ calls, Slot.observations ⟨source.isIo, tag, r₁', [], []⟩ calls =
      Slot.observations ⟨source.isIo, tag, r₂', [], []⟩ calls) :
    inherited source r₁ tag = inherited source r₂ tag := by
  obtain ⟨hentry₁, htriggers₁, -⟩ := Source.register_ok h₁
  obtain ⟨hentry₂, htriggers₂, -⟩ := Source.register_ok h₂
  have hnew₁ := Source.new_of_register h₁
  have hnew₂ := Source.new_of_register h₂
  -- each part of the inheritance is brought out by calls of its own
  have htriggers : r₁.triggeredSoftwareEvents.count tag = r₂.triggeredSoftwareEvents.count tag := by
    obtain ⟨b₁, hobs₁, hposted₁⟩ := hnew₁.observations_handleSoftwareEvents
    obtain ⟨b₂, hobs₂, hposted₂⟩ := hnew₂.observations_handleSoftwareEvents
    obtain rfl : b₁ = b₂ := by simpa [hobs₁, hobs₂] using h [.handleSoftwareEvents]
    simpa [Slot.triggers, htriggers₁, htriggers₂] using
      congrArg List.length (hposted₁.symm.trans hposted₂)
  have hprogress : (r₁.operations tag).executionInProgress =
      (r₂.operations tag).executionInProgress := by
    obtain ⟨b₁, hobs₁, hreleased₁⟩ := hnew₁.observations_deregister
    obtain ⟨b₂, hobs₂, hreleased₂⟩ := hnew₂.observations_deregister
    obtain rfl : b₁ = b₂ := by simpa [hobs₁, hobs₂] using h [.deregister false]
    simp only [Slot.entry, hentry₁, hentry₂] at hreleased₁ hreleased₂
    exact eq_of_ite_eq (by simp) (hreleased₁.symm.trans hreleased₂)
  cases source with
  | io ioSource events hio =>
    have hongoing : (r₁.operations tag).asyncOperationOngoing =
        (r₂.operations tag).asyncOperationOngoing := by
      obtain ⟨b₁, hobs₁, harrivals₁⟩ := Slot.New.observations_start
        (s := ⟨Source.isIo (.io ioSource events hio), tag, r₁', [], []⟩) rfl
      obtain ⟨b₂, hobs₂, harrivals₂⟩ := Slot.New.observations_start
        (s := ⟨Source.isIo (.io ioSource events hio), tag, r₂', [], []⟩) rfl
      obtain rfl : b₁ = b₂ := by simpa [hobs₁, hobs₂] using h [.start .kRead true]
      simp only [Slot.entry, hentry₁, hentry₂] at harrivals₁ harrivals₂
      exact eq_of_ite_eq Nat.zero_ne_one (harrivals₁.symm.trans harrivals₂)
    have hoperation : (r₁.operations tag).releaseHandlerMemory =
        (r₂.operations tag).releaseHandlerMemory ∧
        (r₁.operations tag).closeIoSource = (r₂.operations tag).closeIoSource := by
      obtain ⟨_, _, b₁, hobs₁, hreleased₁, hclosed₁⟩ := hnew₁.observations_operation rfl
      obtain ⟨_, _, b₂, hobs₂, hreleased₂, hclosed₂⟩ := hnew₂.observations_operation rfl
      have hobs := Option.some.inj (hobs₁.symm.trans ((h _).trans hobs₂))
      simp only [List.cons.injEq, and_true] at hobs
      obtain ⟨-, -, rfl⟩ := hobs
      simp only [Slot.entry, hentry₁, hentry₂] at hreleased₁ hreleased₂ hclosed₁ hclosed₂
      exact ⟨eq_of_ite_eq (by simp) (hreleased₁.symm.trans hreleased₂),
        hclosed₁.symm.trans hclosed₂⟩
    have hflag : (decide (0 < r₁.triggeredSoftwareEvents.count tag) &&
          (r₁.operations tag).isSoftwareEventOneshot) =
        (decide (0 < r₂.triggeredSoftwareEvents.count tag) &&
          (r₂.operations tag).isSoftwareEventOneshot) := by
      rw [← htriggers]
      -- only a trigger of the former occupant brings the flag out
      by_cases hpos : 0 < r₁.triggeredSoftwareEvents.count tag
      · obtain ⟨_, _, _, b₁, hobs₁, -, hresult₁⟩ := hnew₁.observations_software
          (by rwa [Slot.triggers, htriggers₁])
        obtain ⟨_, _, _, b₂, hobs₂, -, hresult₂⟩ := hnew₂.observations_software
          (by rwa [Slot.triggers, htriggers₂, ← htriggers])
        have hobs := Option.some.inj (hobs₁.symm.trans ((h _).trans hobs₂))
        simp only [List.cons.injEq, and_true] at hobs
        obtain ⟨-, -, -, rfl⟩ := hobs
        simp only [Slot.entry, hentry₁, hentry₂, Source.entry, Source.isOneShot, Bool.or_false]
          at hresult₁ hresult₂
        rw [eq_of_ite_eq (by simp) (hresult₁.symm.trans hresult₂)]
      · simp [hpos]
    simp only [inherited, Inherited.mk.injEq]
    exact ⟨hongoing, hprogress, hflag, hoperation.1, hoperation.2, htriggers⟩
  | oneShotSoftwareEvent => simp only [inherited, hprogress, htriggers]
  | persistentSoftwareEvent =>
    obtain ⟨_, _, _, b₁, c₁, hobs₁, hreleased₁, hresult₁⟩ := hnew₁.observations_trigger rfl
    obtain ⟨_, _, _, b₂, c₂, hobs₂, hreleased₂, hresult₂⟩ := hnew₂.observations_trigger rfl
    have hobs := Option.some.inj (hobs₁.symm.trans ((h _).trans hobs₂))
    simp only [List.cons.injEq, and_true] at hobs
    obtain ⟨-, -, -, rfl, rfl⟩ := hobs
    simp only [Slot.entry, hentry₁, hentry₂, Source.entry, Source.isOneShot, Bool.or_false]
      at hreleased₁ hreleased₂ hresult₁ hresult₂
    have hflag := eq_of_ite_eq (by simp) (hresult₁.symm.trans hresult₂)
    have hrelease := eq_of_ite_eq (by simp) (hreleased₁.symm.trans hreleased₂)
    -- the flag of one-shot events hides what else would release the handler
    have hreleased : (!(r₁.operations tag).isSoftwareEventOneshot &&
          (r₁.operations tag).releaseHandlerMemory) =
        (!(r₂.operations tag).isSoftwareEventOneshot &&
          (r₂.operations tag).releaseHandlerMemory) := by
      rw [← hflag] at hrelease ⊢
      cases hone : (r₁.operations tag).isSoftwareEventOneshot with
      | true => rfl
      | false => simpa [hone] using hrelease
    simp only [inherited, Inherited.mk.injEq, true_and]
    exact ⟨hprogress, hflag, hreleased, htriggers⟩

/-- Slot reuse. Take any two histories of the reactor after which the registration of the same I/O
source or software event with the same handler gets the same slot. The two registrations behave
alike under every sequence of events, operation starts, triggers, operations and deregistrations if
and only if they inherit the same from the former occupants of the slot. -/
theorem slot_reuse_fresh_iff (h₁ : source.register r₁ handler resources = (r₁', .ok tag))
    (h₂ : source.register r₂ handler resources = (r₂', .ok tag)) :
    (∀ calls, Slot.observations ⟨source.isIo, tag, r₁', [], []⟩ calls =
      Slot.observations ⟨source.isIo, tag, r₂', [], []⟩ calls) ↔
    inherited source r₁ tag = inherited source r₂ tag :=
  ⟨inherited_eq_of_observations h₁ h₂, observations_eq_of_inherited h₁ h₂⟩

end Histories

/-! ## Two connections in one slot -/

/-- A new reactor with one slot, and two open descriptors. -/
def oneSlot : EpollReactor ℕ := { size := 1, kernel := (Kernel.openFd {} 5).openFd 6 }

/-- The descriptor 5 is registered for reading, and then deregistered and closed. -/
def slotClosed : EpollReactor ℕ :=
  ((oneSlot.registerImpl .ioEvent 5 .kRead 0 true).1.derigsterImpl 0 true).1

/-- The descriptor 5 is registered for reading, an operation is started on it, and it is
deregistered and closed. -/
def slotClosedOngoing : EpollReactor ℕ :=
  (((oneSlot.registerImpl .ioEvent 5 .kRead 0 true).1.onStartOfOperation 0 .kRead
    true).derigsterImpl 0 true).1

/-- The descriptor 6, registered for reading. -/
def nextSource : Source := .io 6 .kRead (by decide)

/-- The next connection in the slot of one that was closed without an operation behaves like the
first connection of a new reactor. -/
theorem slot_reuse_fresh_iff_closed :
    ∃ r₁ r₂, nextSource.register oneSlot 1 true = (r₁, .ok 0) ∧
      nextSource.register slotClosed 1 true = (r₂, .ok 0) ∧
      ∀ calls, Slot.observations ⟨true, 0, r₁, [], []⟩ calls =
        Slot.observations ⟨true, 0, r₂, [], []⟩ calls := by
  have h₁ : nextSource.register oneSlot 1 true = (_, .ok 0) := Prod.ext rfl rfl
  have h₂ : nextSource.register slotClosed 1 true = (_, .ok 0) := Prod.ext rfl rfl
  exact ⟨_, _, h₁, h₂, (slot_reuse_fresh_iff h₁ h₂).mpr (by decide)⟩

/-- The first operation of the next connection in the slot of one that was closed with an operation
ongoing is not reported to the executor. -/
theorem slot_reuse_operation_ongoing :
    ∃ r₁ r₂, nextSource.register oneSlot 1 true = (r₁, .ok 0) ∧
      nextSource.register slotClosedOngoing 1 true = (r₂, .ok 0) ∧
      ¬ ∀ calls, Slot.observations ⟨true, 0, r₁, [], []⟩ calls =
        Slot.observations ⟨true, 0, r₂, [], []⟩ calls := by
  refine ⟨_, _, Prod.ext rfl rfl, Prod.ext rfl rfl, fun h => ?_⟩
  have harrivals := congrArg (Option.map (List.map Observation.arrivals)) (h [.start .kRead true])
  exact absurd harrivals (by decide)

end Asrt.Reactor.SlotReuse
