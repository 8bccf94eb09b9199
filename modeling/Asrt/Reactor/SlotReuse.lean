import Asrt.Reactor.SoftwareEvents

/-!
# The new occupant of a slot

What a registration does with its slot, as far as others can see it: the operations that are posted
for it, the jobs that are reported to the executor, the handlers that are called and released and
the descriptors that are closed. `Slot.respond` runs the reactor's functions on the entry of one
tag.

`RegisterImpl()` writes six members of the entry it has found, and the other members, as well as the
recorded triggers of the tag, are those of the former occupant. `inherited` is the part of them that
the functions of the new registration read. `slot_reuse_fresh_iff` proves that two histories cannot
be told apart by the new occupant of a slot if and only if they leave it the same `inherited`
values; `slot_reuse_operation_ongoing` is a history that leaves an operation ongoing, so that the
first operation of the next occupant is not reported to the executor.

## Main definitions

* `Source`: what is registered.
* `Slot.respond`: the calls that concern the registration and what they show.
* `inherited`: what a registration takes over from the former occupant.

## Main results

* `slot_reuse_fresh_iff`
-/

namespace Asrt.Reactor.SlotReuse

variable {H : Type}

/-- What is registered: an I/O source for some I/O events, or a software event. -/
inductive Source
  | io (ioSource : NativeHandle) (events : Events) (hio : events.hasIoEvent = true)
  | oneShotSoftwareEvent
  | persistentSoftwareEvent

/-- An I/O source is registered. -/
def Source.isIo : Source → Bool
  | io _ _ _ => true
  | oneShotSoftwareEvent | persistentSoftwareEvent => false

/-- `Register()`, `RegisterOneShotSoftwareEvent()` or `RegisterPersistentSoftwareEvent()`. -/
def Source.register (source : Source) (r : EpollReactor H) (handler : H) (resources : Bool) :
    EpollReactor H × Except ErrorCode HandlerTag :=
  match source with
  | io ioSource events _ => r.registerImpl .ioEvent ioSource events handler resources
  | oneShotSoftwareEvent =>
    r.registerImpl .oneShotSoftwareEvent kInvalidNativeHandle .oneShotSoftwareEvent handler
      resources
  | persistentSoftwareEvent =>
    r.registerImpl .persistentSoftwareEvent kInvalidNativeHandle .persistentSoftwareEvent handler
      resources

/-- The calls that concern a registration. -/
inductive Call
  /-- `HandleSingleEvent()` -/
  | event (mask : BitVec 32)
  /-- `OnStartOfOperation()` -/
  | start (opType : Events) (resources : Bool)
  /-- `OnEventIgnored()` -/
  | ignored (ev : Events)
  /-- `TriggerSoftwareEvent()` -/
  | trigger
  /-- `HandleSoftwareEvents()`, as far as the tag is concerned. -/
  | handleSoftwareEvents
  /-- The executor runs a posted operation, up to the call of the handler. -/
  | begin
  /-- The handler that an operation has called returns, and the operation ends. -/
  | finish
  /-- The executor runs a posted operation of a software event, up to the call of the handler. -/
  | beginSoftware
  /-- The handler that such an operation has called returns, and the operation ends. -/
  | finishSoftware
  /-- `Deregister()` or `DeregisterSoftwareEvent()` -/
  | deregister (closeOnDeregister : Bool)
deriving DecidableEq, Repr

/-- A registration in its slot, with its operations. -/
structure Slot (H : Type) where
  /-- The registration is that of an I/O source. -/
  isIo : Bool
  tag : HandlerTag
  reactor : EpollReactor H
  /-- The posted operations. -/
  queued : List Operation := []
  /-- The operations whose handlers are running. -/
  executing : List Operation := []

/-- What a call shows. -/
structure Observation (H : Type) where
  /-- The operations that are posted. -/
  posted : List Operation
  /-- The calls of `OnJobArrival()`, as the counter shows them. -/
  arrivals : ℕ
  /-- The handler that is called, and the events it is given. -/
  called : Option (Option H × Events)
  /-- The handler whose memory is released. -/
  released : Option H
  /-- The descriptor is closed. -/
  closed : Bool
  /-- The result of the call. -/
  result : Except ErrorCode Unit

namespace Slot

/-- The entry of the registration. -/
abbrev entry (s : Slot H) : OperationEntry H := s.reactor.operations s.tag

/-- The number of times the tag is recorded in `triggered_software_events_`. -/
def triggers (s : Slot H) : ℕ := s.reactor.triggeredSoftwareEvents.count s.tag

/-- What a call shows that leaves the reactor in the given state. -/
def observe (s : Slot H) (reactor : EpollReactor H) (posted : List Operation := [])
    (called : Option (Option H × Events) := none) (result : Except ErrorCode Unit := .ok ()) :
    Observation H where
  posted
  arrivals := (reactor.jobCount + 2 ^ 32 - s.reactor.jobCount % 2 ^ 32) % 2 ^ 32
  called
  released := if (reactor.operations s.tag).handler.isNone then s.entry.handler else none
  closed := s.reactor.kernel.isOpen s.entry.ioSource && !reactor.kernel.isOpen s.entry.ioSource
  result

/-- A call, if it can be made: the slot after it and what it shows. -/
def respond (s : Slot H) : Call → Option (Slot H × Observation H)
  | .event mask =>
    if s.isIo then
      let (reactor, posted) := s.reactor.handleSingleEvent ⟨mask, s.tag⟩ []
      some ({ s with reactor, queued := s.queued ++ posted }, s.observe reactor posted)
    else none
  | .start opType resources =>
    if s.isIo then
      let reactor := s.reactor.onStartOfOperation s.tag opType resources
      some ({ s with reactor }, s.observe reactor)
    else none
  | .ignored ev =>
    if s.isIo then
      let reactor := s.reactor.onEventIgnored s.tag ev
      some ({ s with reactor }, s.observe reactor)
    else none
  | .trigger =>
    if s.isIo then none
    else
      let (reactor, result) := s.reactor.triggerSoftwareEvent s.tag
      some ({ s with reactor }, s.observe reactor [] none result)
  | .handleSoftwareEvents =>
    let (reactor, posted, _) := EpollReactor.handleSoftwareEventsLoop
      (List.replicate s.triggers s.tag) s.reactor [] 0
    some ({ s with reactor, queued := s.queued ++ posted }, s.observe reactor posted)
  | .begin =>
    if .ioEvent s.tag ∈ s.queued then
      let queued := s.queued.erase (.ioEvent s.tag)
      match s.reactor.beginOperation s.tag with
      | (reactor, some called) =>
        some ({ s with reactor, queued, executing := .ioEvent s.tag :: s.executing },
          s.observe reactor [] (some called))
      | (reactor, none) => some ({ s with reactor, queued }, s.observe reactor)
    else none
  | .finish =>
    if .ioEvent s.tag ∈ s.executing then
      let reactor := s.reactor.finishOperation s.tag
      some ({ s with reactor, executing := s.executing.erase (.ioEvent s.tag) }, s.observe reactor)
    else none
  | .beginSoftware =>
    if .softwareEvent s.tag ∈ s.queued then
      let reactor := s.reactor.beginSoftwareOperation s.tag
      some ({ s with
          reactor
          queued := s.queued.erase (.softwareEvent s.tag)
          executing := .softwareEvent s.tag :: s.executing },
        s.observe reactor [] (some (s.entry.handler, {})))
    else none
  | .finishSoftware =>
    if .softwareEvent s.tag ∈ s.executing then
      let reactor := s.reactor.finishSoftwareOperation s.tag
      some ({ s with reactor, executing := s.executing.erase (.softwareEvent s.tag) },
        s.observe reactor)
    else none
  | .deregister closeOnDeregister =>
    let (reactor, result) := if s.isIo then s.reactor.derigsterImpl s.tag closeOnDeregister
      else s.reactor.deregisterSoftwareEvent s.tag
    some ({ s with reactor }, s.observe reactor [] none result)

/-- What a sequence of calls shows. -/
def observations : Slot H → List Call → Option (List (Observation H)) :=
  ToMathlib.Responder.outputs respond

variable {s : Slot H} {reactor : EpollReactor H} {posted : List Operation}
  {result : Except ErrorCode Unit}

theorem respond_event (hio : s.isIo = true) {mask : BitVec 32}
    (heq : s.reactor.handleSingleEvent ⟨mask, s.tag⟩ [] = (reactor, posted)) :
    s.respond (.event mask) =
      some ({ s with reactor, queued := s.queued ++ posted }, s.observe reactor posted) := by
  simp [respond, hio, heq]

theorem respond_start (hio : s.isIo = true) {opType : Events} {resources : Bool}
    (heq : s.reactor.onStartOfOperation s.tag opType resources = reactor) :
    s.respond (.start opType resources) = some ({ s with reactor }, s.observe reactor) := by
  simp [respond, hio, heq]

theorem respond_ignored (hio : s.isIo = true) {ev : Events}
    (heq : s.reactor.onEventIgnored s.tag ev = reactor) :
    s.respond (.ignored ev) = some ({ s with reactor }, s.observe reactor) := by
  simp [respond, hio, heq]

theorem respond_trigger (hio : s.isIo = false)
    (heq : s.reactor.triggerSoftwareEvent s.tag = (reactor, result)) :
    s.respond .trigger = some ({ s with reactor }, s.observe reactor [] none result) := by
  simp [respond, hio, heq]

theorem respond_handleSoftwareEvents {handled : ℕ}
    (heq : EpollReactor.handleSoftwareEventsLoop (List.replicate s.triggers s.tag) s.reactor [] 0 =
      (reactor, posted, handled)) :
    s.respond .handleSoftwareEvents =
      some ({ s with reactor, queued := s.queued ++ posted }, s.observe reactor posted) := by
  simp [respond, heq]

theorem respond_begin_some (hmem : .ioEvent s.tag ∈ s.queued) {called : Option H × Events}
    (heq : s.reactor.beginOperation s.tag = (reactor, some called)) :
    s.respond .begin = some ({ s with
        reactor
        queued := s.queued.erase (.ioEvent s.tag)
        executing := .ioEvent s.tag :: s.executing }, s.observe reactor [] (some called)) := by
  simp [respond, hmem, heq]

theorem respond_begin_none (hmem : .ioEvent s.tag ∈ s.queued)
    (heq : s.reactor.beginOperation s.tag = (reactor, none)) :
    s.respond .begin = some ({ s with reactor, queued := s.queued.erase (.ioEvent s.tag) },
      s.observe reactor) := by
  simp [respond, hmem, heq]

theorem respond_finish (hmem : .ioEvent s.tag ∈ s.executing)
    (heq : s.reactor.finishOperation s.tag = reactor) :
    s.respond .finish = some ({ s with reactor, executing := s.executing.erase (.ioEvent s.tag) },
      s.observe reactor) := by
  simp [respond, hmem, heq]

theorem respond_beginSoftware (hmem : .softwareEvent s.tag ∈ s.queued) :
    s.respond .beginSoftware = some ({ s with
        reactor := s.reactor.beginSoftwareOperation s.tag
        queued := s.queued.erase (.softwareEvent s.tag)
        executing := .softwareEvent s.tag :: s.executing },
      s.observe (s.reactor.beginSoftwareOperation s.tag) [] (some (s.entry.handler, {}))) := by
  simp [respond, hmem]

theorem respond_finishSoftware (hmem : .softwareEvent s.tag ∈ s.executing)
    (heq : s.reactor.finishSoftwareOperation s.tag = reactor) :
    s.respond .finishSoftware =
      some ({ s with reactor, executing := s.executing.erase (.softwareEvent s.tag) },
        s.observe reactor) := by
  simp [respond, hmem, heq]

theorem respond_deregister {closeOnDeregister : Bool}
    (heq : (if s.isIo then s.reactor.derigsterImpl s.tag closeOnDeregister
      else s.reactor.deregisterSoftwareEvent s.tag) = (reactor, result)) :
    s.respond (.deregister closeOnDeregister) =
      some ({ s with reactor }, s.observe reactor [] none result) := by
  simp [respond, heq]

end Slot

/-- What a registration takes over from the former occupant of its slot and reads. -/
structure Inherited where
  asyncOperationOngoing : Bool := false
  executionInProgress : Bool
  isSoftwareEventOneshot : Bool
  releaseHandlerMemory : Bool := false
  closeIoSource : Bool := false
  /-- How often the tag is recorded in `triggered_software_events_`. -/
  triggers : ℕ
deriving DecidableEq, Repr

/-- What a registration inherits in a free slot. An I/O source meets the flag of one-shot events
only if a trigger of the tag is still recorded; a one-shot event sets it, and with it the handler is
released in any case. -/
def inherited (source : Source) (r : EpollReactor H) (tag : HandlerTag) : Inherited :=
  let e := r.operations tag
  let triggers := r.triggeredSoftwareEvents.count tag
  match source with
  | .io _ _ _ => {
      asyncOperationOngoing := e.asyncOperationOngoing
      executionInProgress := e.executionInProgress
      isSoftwareEventOneshot := 0 < triggers && e.isSoftwareEventOneshot
      releaseHandlerMemory := e.releaseHandlerMemory
      closeIoSource := e.closeIoSource
      triggers }
  | .oneShotSoftwareEvent => {
      executionInProgress := e.executionInProgress
      isSoftwareEventOneshot := true
      triggers }
  | .persistentSoftwareEvent => {
      executionInProgress := e.executionInProgress
      isSoftwareEventOneshot := e.isSoftwareEventOneshot
      releaseHandlerMemory := !e.isSoftwareEventOneshot && e.releaseHandlerMemory
      triggers }

/-! ## What the reactor's functions do to the slot -/

/-- The visits of `HandleSoftwareEvents()` to the recorded triggers of one tag: a valid entry gets
one operation for each, and one job for each unless it is that of a one-shot event. -/
theorem handleSoftwareEventsLoop_replicate (tag : HandlerTag) (n : ℕ) (r : EpollReactor H)
    (opQueue : List Operation) (handledEvents : ℕ) :
    ∃ r' handled, EpollReactor.handleSoftwareEventsLoop
      (List.replicate n tag) r opQueue handledEvents =
        (r', opQueue ++ (if (r.operations tag).valid then List.replicate n (.softwareEvent tag)
          else []), handled) ∧
      r'.operations tag = { r.operations tag with
        handlerPosted := (r.operations tag).handlerPosted ||
          ((r.operations tag).valid && decide (0 < n)) } ∧
      r'.kernel = r.kernel ∧ r'.triggeredSoftwareEvents = r.triggeredSoftwareEvents ∧
      r'.jobCount % 2 ^ 32 = (r.jobCount + if (r.operations tag).valid &&
        !(r.operations tag).isSoftwareEventOneshot then n else 0) % 2 ^ 32 := by
  induction n generalizing r opQueue handledEvents with
  | zero =>
    refine ⟨r, handledEvents, ?_, ?_, rfl, rfl, ?_⟩
    · simp [EpollReactor.handleSoftwareEventsLoop]
    · simp
    · simp
  | succ n ih =>
    rw [List.replicate_succ]
    unfold EpollReactor.handleSoftwareEventsLoop
    cases hvalid : (r.operations tag).valid with
    | false =>
      obtain ⟨r', handled, heq, hentry, hkernel, htriggers, hjobs⟩ := ih r opQueue handledEvents
      -- a trigger of an invalid entry is skipped
      simp only [hvalid, Bool.false_and, Bool.or_false, Bool.not_false,
        if_true] at heq hentry hjobs ⊢
      exact ⟨r', handled, heq, hentry, hkernel, htriggers, hjobs⟩
    | true =>
      cases hflag : (r.operations tag).isSoftwareEventOneshot with
      | true =>
        -- the job of a one-shot event was counted at its registration
        obtain ⟨r', handled, heq, hentry, hkernel, htriggers, hjobs⟩ :=
          ih (r.setEntry tag { r.operations tag with handlerPosted := true })
            (opQueue ++ [.softwareEvent tag]) (handledEvents + 1)
        refine ⟨r', handled, ?_, ?_, hkernel, htriggers, ?_⟩
        · simpa [hvalid, hflag, List.replicate_succ] using heq
        · simpa [hvalid, hflag] using hentry
        · simpa [hvalid, hflag, EpollReactor.setEntry] using hjobs
      | false =>
        obtain ⟨r', handled, heq, hentry, hkernel, htriggers, hjobs⟩ :=
          ih (r.setEntry tag { r.operations tag with handlerPosted := true }).onJobArrival
            (opQueue ++ [.softwareEvent tag]) (handledEvents + 1)
        refine ⟨r', handled, ?_, ?_, hkernel, htriggers, ?_⟩
        · simpa [hvalid, hflag, List.replicate_succ, EpollReactor.onJobArrival] using heq
        · simpa [hvalid, hflag, EpollReactor.onJobArrival] using hentry
        · have hcount : r'.jobCount % 2 ^ 32 = (Executor.fetchAdd r.jobCount 1 + n) % 2 ^ 32 := by
            simpa [hvalid, hflag, EpollReactor.setEntry, EpollReactor.onJobArrival] using hjobs
          rw [hcount]
          simp only [Executor.fetchAdd, Bool.not_false, Bool.and_self, if_true]
          omega

/-- `OnStartOfOperation()` changes the entry and the counter, and the interest in the descriptor if
it was the first write and the kernel takes the new mask. -/
theorem onStartOfOperation_interest (r : EpollReactor H) (tag : HandlerTag) (opType : Events)
    (resources : Bool) :
    ∃ interest, interest (r.operations tag).ioSource =
        (if (opType = .kWrite ∧ !(r.operations tag).monitoredEvents.hasWriteEvent) ∧
            r.kernel.isOpen (r.operations tag).ioSource = true ∧
            (r.kernel.interest (r.operations tag).ioSource).isSome = true ∧ resources = true then
          some
            ⟨((r.operations tag).monitoredEvents.union opType).eventMask ||| EPOLLIN ||| EPOLLPRI,
            tag⟩
        else r.kernel.interest (r.operations tag).ioSource) ∧
      r.onStartOfOperation tag opType resources =
        { r with
          kernel := { r.kernel with interest }
          jobCount := if (r.operations tag).asyncOperationOngoing then r.jobCount
            else Executor.fetchAdd r.jobCount 1 }.setEntry tag { r.operations tag with
          monitoredEvents := (r.operations tag).monitoredEvents.union opType
          asyncOperationOngoing := true } := by
  -- the epoll call is made for the first write only
  by_cases hfirst : opType = .kWrite ∧ !(r.operations tag).monitoredEvents.hasWriteEvent
  · cases hmod : r.kernel.epollModify (r.operations tag).ioSource
        ⟨((r.operations tag).monitoredEvents.union opType).eventMask ||| EPOLLIN ||| EPOLLPRI, tag⟩
        resources with
    | ok kernel =>
      have hkernel : r.kernel.isOpen (r.operations tag).ioSource = true ∧
          (r.kernel.interest (r.operations tag).ioSource).isSome = true ∧ resources = true := by
        unfold Kernel.epollModify at hmod
        split_ifs at hmod with hopen hnone hres
        exact ⟨by simpa using hopen, by simpa [Option.isSome_iff_ne_none] using hnone,
          by simpa using hres⟩
      obtain rfl := Kernel.eq_of_epollModify hmod
      refine ⟨Function.update r.kernel.interest (r.operations tag).ioSource (some
        ⟨((r.operations tag).monitoredEvents.union opType).eventMask ||| EPOLLIN ||| EPOLLPRI,
          tag⟩),
        ?_, ?_⟩
      · rw [if_pos ⟨hfirst, hkernel⟩, Function.update_self]
      · simp only [EpollReactor.onStartOfOperation, EpollReactor.markOperationStarted_eq,
          EpollReactor.setEntry, Function.update_self, hmod]
        rw [if_pos hfirst]
    | error ec =>
      refine ⟨r.kernel.interest, ?_, ?_⟩
      · rw [if_neg]
        rintro ⟨-, hopen, hsome, hres⟩
        obtain ⟨event, hevent⟩ := Option.isSome_iff_exists.mp hsome
        simp [Kernel.epollModify, hopen, hevent, hres] at hmod
      · simp only [EpollReactor.onStartOfOperation, EpollReactor.markOperationStarted_eq,
          EpollReactor.setEntry, Function.update_self, hmod]
        rw [if_pos hfirst]
  · refine ⟨r.kernel.interest, ?_, ?_⟩
    · rw [if_neg fun h => hfirst h.1]
    · simp only [EpollReactor.onStartOfOperation, EpollReactor.markOperationStarted_eq]
      rw [if_neg hfirst]

/-- The counter shows the arrivals up to a multiple of its range. -/
theorem arrivals_eq {before after k : ℕ} (h : after % 2 ^ 32 = (before + k) % 2 ^ 32) :
    (after + 2 ^ 32 - before % 2 ^ 32) % 2 ^ 32 = k % 2 ^ 32 := by
  omega

/-- The jobs that the start of an operation reports. -/
theorem jobs_of_start (asyncOperationOngoing : Bool) (jobCount : ℕ) :
    (if asyncOperationOngoing then jobCount else Executor.fetchAdd jobCount 1) % 2 ^ 32 =
      (jobCount + if asyncOperationOngoing then 0 else 1) % 2 ^ 32 := by
  split
  · rfl
  · simp [Executor.fetchAdd]

namespace Slot

/-- An operation of a software event can come to run on the entry. -/
def SoftwareActive (s : Slot H) : Prop :=
  0 < s.triggers ∨ .softwareEvent s.tag ∈ s.queued ∨ .softwareEvent s.tag ∈ s.executing

/-! ## I/O sources -/

/-- The slot of an I/O source with another reactor that differs at most in what is not read. -/
structure IoAlike (s : Slot H) (r : EpollReactor H) : Prop where
  isIo : s.isIo = true
  triggers : r.triggeredSoftwareEvents.count s.tag = s.triggers
  isOpen : r.kernel.isOpen s.entry.ioSource = s.reactor.kernel.isOpen s.entry.ioSource
  interest : r.kernel.interest s.entry.ioSource = s.reactor.kernel.interest s.entry.ioSource
  entry : ∃ isSoftwareEventOneshot,
    r.operations s.tag = { s.entry with isSoftwareEventOneshot } ∧
    (isSoftwareEventOneshot = s.entry.isSoftwareEventOneshot ∨ ¬ s.SoftwareActive)

variable {s s₁ : Slot H} {r r₁ : EpollReactor H}

/-- A call that leaves the slots alike shows the same. -/
theorem IoAlike.observe_eq (h : s.IoAlike r) (h₁ : s₁.IoAlike r₁) (htag : s₁.tag = s.tag)
    (hsource : s₁.entry.ioSource = s.entry.ioSource) {k : ℕ}
    (hjobs : s₁.reactor.jobCount % 2 ^ 32 = (s.reactor.jobCount + k) % 2 ^ 32)
    (hjobs' : r₁.jobCount % 2 ^ 32 = (r.jobCount + k) % 2 ^ 32) (posted : List Operation)
    (called : Option (Option H × Events)) (result : Except ErrorCode Unit) :
    { s with reactor := r }.observe r₁ posted called result =
      s.observe s₁.reactor posted called result := by
  obtain ⟨o, hentry, -⟩ := h.entry
  obtain ⟨o₁, hentry₁, -⟩ := h₁.entry
  -- an observation does not read the flag in which the entries may differ
  have hopen₁ := h₁.isOpen
  rw [htag] at hentry₁
  rw [hsource] at hopen₁
  simp only [observe, Slot.entry, hentry, hentry₁, h.isOpen, hopen₁, arrivals_eq hjobs,
    arrivals_eq hjobs', htag]

/-- The slots stay alike if their entries and their kernels do. -/
theorem IoAlike.of_entry (h : s.IoAlike r) (o : Bool) {reactor : EpollReactor H}
    {queued executing : List Operation} {e : OperationEntry H} (he : reactor.operations s.tag = e)
    (hr₁ : r₁.operations s.tag = { e with isSoftwareEventOneshot := o })
    (ho : o = e.isSoftwareEventOneshot ∨
      ¬ { s with reactor, queued, executing : Slot H }.SoftwareActive)
    (htriggers : reactor.triggeredSoftwareEvents = s.reactor.triggeredSoftwareEvents)
    (htriggers' : r₁.triggeredSoftwareEvents = r.triggeredSoftwareEvents)
    (hopen : r₁.kernel.isOpen e.ioSource = reactor.kernel.isOpen e.ioSource)
    (hinterest : r₁.kernel.interest e.ioSource = reactor.kernel.interest e.ioSource) :
    { s with reactor, queued, executing : Slot H }.IoAlike r₁ where
  isIo := h.isIo
  triggers := by
    simp only [Slot.triggers, htriggers, htriggers']
    exact h.triggers
  isOpen := by
    simp only [Slot.entry, he]
    exact hopen
  interest := by
    simp only [Slot.entry, he]
    exact hinterest
  entry := ⟨o, by simpa only [Slot.entry, he] using hr₁, by simpa only [Slot.entry, he] using ho⟩

/-- Without software operations nothing that is appended or erased brings one. -/
theorem not_softwareActive_of_subset (h : ¬ s.SoftwareActive) {reactor : EpollReactor H}
    {queued executing : List Operation}
    (htriggers : reactor.triggeredSoftwareEvents = s.reactor.triggeredSoftwareEvents)
    (hqueued : .softwareEvent s.tag ∈ queued → .softwareEvent s.tag ∈ s.queued)
    (hexecuting : .softwareEvent s.tag ∈ executing → .softwareEvent s.tag ∈ s.executing) :
    ¬ { s with reactor, queued, executing : Slot H }.SoftwareActive := by
  unfold SoftwareActive Slot.triggers at h ⊢
  dsimp only
  rw [htriggers]
  exact fun hactive => h (hactive.imp_right (Or.imp hqueued hexecuting))

/-- Two slots respond to a call in the same way, and are related afterwards. -/
def RespondAlike (R : Slot H → EpollReactor H → Prop) (s : Slot H) (r : EpollReactor H)
    (call : Call) : Prop :=
  (s.respond call = none ∧ { s with reactor := r }.respond call = none) ∨
    ∃ s₁ r₁ b, s.respond call = some (s₁, b) ∧
      { s with reactor := r }.respond call = some ({ s₁ with reactor := r₁ }, b) ∧ R s₁ r₁

/-- A call that both slots take and that leaves them alike. -/
theorem IoAlike.respondAlike (h : s.IoAlike r) {call : Call} {posted : List Operation}
    {called : Option (Option H × Events)} {result : Except ErrorCode Unit}
    (hs : s.respond call = some (s₁, s.observe s₁.reactor posted called result))
    (hr : { s with reactor := r }.respond call = some ({ s₁ with reactor := r₁ },
      { s with reactor := r }.observe r₁ posted called result))
    (h₁ : s₁.IoAlike r₁) (htag : s₁.tag = s.tag) (hsource : s₁.entry.ioSource = s.entry.ioSource)
    (k : ℕ) (hjobs : s₁.reactor.jobCount % 2 ^ 32 = (s.reactor.jobCount + k) % 2 ^ 32)
    (hjobs' : r₁.jobCount % 2 ^ 32 = (r.jobCount + k) % 2 ^ 32) :
    RespondAlike IoAlike s r call := by
  refine .inr ⟨s₁, r₁, _, hs, ?_, h₁⟩
  rw [hr, h.observe_eq h₁ htag hsource hjobs hjobs']

/-- The descriptors are closed or left open alike. -/
theorem IoAlike.closeFd (h : s.IoAlike r) (p : Prop) [Decidable p] :
    let kernel' := if p then r.kernel.closeFd s.entry.ioSource else r.kernel
    let kernel := if p then s.reactor.kernel.closeFd s.entry.ioSource else s.reactor.kernel
    kernel'.isOpen s.entry.ioSource = kernel.isOpen s.entry.ioSource ∧
      kernel'.interest s.entry.ioSource = kernel.interest s.entry.ioSource := by
  by_cases hp : p
  · simp [hp, Kernel.closeFd]
  · simpa [hp] using ⟨h.isOpen, h.interest⟩

/-- `HandleSingleEvent()` -/
theorem IoAlike.event (h : s.IoAlike r) (mask : BitVec 32) :
    RespondAlike IoAlike s r (.event mask) := by
  obtain ⟨o, hentry, ho⟩ := h.entry
  -- both post the operation, or neither does
  have hreports : r.Reports ⟨mask, s.tag⟩ ↔ s.reactor.Reports ⟨mask, s.tag⟩ := by
    simp only [EpollReactor.Reports, hentry]
  have heq := EpollReactor.handleSingleEvent_eq_ite s.reactor ⟨mask, s.tag⟩ []
  have heq' := EpollReactor.handleSingleEvent_eq_ite r ⟨mask, s.tag⟩ []
  simp only [hreports] at heq'
  refine h.respondAlike (respond_event h.isIo heq)
    (respond_event (s := { s with reactor := r }) h.isIo heq') ?_ rfl ?_ 0 rfl rfl
  · refine h.of_entry o (Function.update_self _ _ _) ?_ ?_ rfl rfl h.isOpen h.interest
    · exact (Function.update_self _ _ _).trans (by rw [hentry])
    · refine ho.imp_right fun hactive => not_softwareActive_of_subset hactive rfl ?_ id
      split <;> simp
  · simp [Slot.entry]

/-- `OnStartOfOperation()` -/
theorem IoAlike.start (h : s.IoAlike r) (opType : Events) (resources : Bool) :
    RespondAlike IoAlike s r (.start opType resources) := by
  obtain ⟨o, hentry, ho⟩ := h.entry
  obtain ⟨interest, hinterest, heq⟩ := onStartOfOperation_interest s.reactor s.tag opType resources
  obtain ⟨interest', hinterest', heq'⟩ := onStartOfOperation_interest r s.tag opType resources
  refine h.respondAlike (respond_start h.isIo heq)
    (respond_start (s := { s with reactor := r }) h.isIo heq') ?_ rfl ?_
    (if s.entry.asyncOperationOngoing then 0 else 1) ?_ ?_
  · refine h.of_entry o (Function.update_self _ _ _) ?_ ?_ rfl rfl h.isOpen ?_
    · exact (Function.update_self _ _ _).trans (by rw [hentry])
    · exact ho.imp_right fun hactive => not_softwareActive_of_subset hactive rfl id id
    · -- the same mask is written, or the epoll call fails in both
      show interest' s.entry.ioSource = interest s.entry.ioSource
      rw [hinterest, show s.entry.ioSource = (r.operations s.tag).ioSource by rw [hentry],
        hinterest']
      simp only [hentry, h.isOpen, h.interest]
  · simp [Slot.entry]
  · exact jobs_of_start _ _
  · rw [show s.entry.asyncOperationOngoing = (r.operations s.tag).asyncOperationOngoing by
      rw [hentry]]
    exact jobs_of_start _ _

/-- `OnEventIgnored()` -/
theorem IoAlike.ignored (h : s.IoAlike r) (ev : Events) :
    RespondAlike IoAlike s r (.ignored ev) := by
  obtain ⟨o, hentry, ho⟩ := h.entry
  refine h.respondAlike (respond_ignored h.isIo rfl)
    (respond_ignored (s := { s with reactor := r }) h.isIo rfl) ?_ rfl ?_ 1 ?_ ?_
  · refine h.of_entry o (EpollReactor.onEventIgnored_entry _ _ _) ?_ ?_ rfl rfl h.isOpen h.interest
    · rw [EpollReactor.onEventIgnored_entry, hentry]
    · exact ho.imp_right fun hactive => not_softwareActive_of_subset hactive rfl id id
  · simp only [Slot.entry, EpollReactor.onEventIgnored_entry]
  · simp [EpollReactor.onEventIgnored, EpollReactor.onJobArrival, EpollReactor.setEntry,
      Executor.fetchAdd]
  · simp [EpollReactor.onEventIgnored, EpollReactor.onJobArrival, EpollReactor.setEntry,
      Executor.fetchAdd]

/-- `HandleSoftwareEvents()` meets the flag of one-shot events only if a trigger is recorded. -/
theorem IoAlike.handleSoftwareEvents (h : s.IoAlike r) :
    RespondAlike IoAlike s r .handleSoftwareEvents := by
  obtain ⟨o, hentry, ho⟩ := h.entry
  obtain ⟨r₁, handled, heq, he, hkernel, htriggers, hjobs⟩ :=
    handleSoftwareEventsLoop_replicate s.tag s.triggers s.reactor [] 0
  obtain ⟨r₂, handled', heq', he', hkernel', htriggers', hjobs'⟩ :=
    handleSoftwareEventsLoop_replicate s.tag s.triggers r [] 0
  have hloop : { s with reactor := r }.triggers = s.triggers := h.triggers
  simp only [hentry] at heq' he' hjobs'
  refine h.respondAlike (respond_handleSoftwareEvents heq)
    (respond_handleSoftwareEvents (s := { s with reactor := r })
      (by rw [hloop]; exact heq')) ?_ rfl ?_ _ hjobs ?_
  · refine h.of_entry o he he' ?_ htriggers htriggers' ?_ ?_
    · refine ho.imp_right fun hactive => not_softwareActive_of_subset hactive htriggers ?_ id
      have hnone : s.triggers = 0 := Nat.eq_zero_of_not_pos fun hpos => hactive (.inl hpos)
      simp [hnone]
    · rw [hkernel, hkernel']
      exact h.isOpen
    · rw [hkernel, hkernel']
      exact h.interest
  · simp only [Slot.entry, he]
  · rw [hjobs']
    rcases ho with rfl | hactive
    · rfl
    · have hnone : s.triggers = 0 := Nat.eq_zero_of_not_pos fun hpos => hactive (.inl hpos)
      simp [hnone]

/-- The operation of an I/O entry, up to the call of the handler. -/
theorem IoAlike.begin (h : s.IoAlike r) : RespondAlike IoAlike s r .begin := by
  obtain ⟨o, hentry, ho⟩ := h.entry
  by_cases hmem : .ioEvent s.tag ∈ s.queued
  · cases hvalid : s.entry.valid with
    | false =>
      have heq := EpollReactor.beginOperation_of_not_valid hvalid
      have heq' := EpollReactor.beginOperation_of_not_valid
        (show (r.operations s.tag).valid = false by rw [hentry]; exact hvalid)
      refine h.respondAlike (respond_begin_none hmem heq)
        (respond_begin_none (s := { s with reactor := r }) hmem heq') ?_ rfl rfl 0 rfl rfl
      refine h.of_entry o rfl hentry ?_ rfl rfl h.isOpen h.interest
      exact ho.imp_right fun hactive =>
        not_softwareActive_of_subset hactive rfl List.mem_of_mem_erase id
    | true =>
      cases hempty : (s.entry.capturedEvents.intersection s.entry.monitoredEvents).empty with
      | false =>
        have heq := EpollReactor.beginOperation_of_report hvalid hempty
        have heq' := EpollReactor.beginOperation_of_report (r := r)
          (show (r.operations s.tag).valid = true by rw [hentry]; exact hvalid)
          (by rw [hentry]; exact hempty)
        simp only [hentry] at heq'
        refine h.respondAlike (respond_begin_some hmem heq)
          (respond_begin_some (s := { s with reactor := r }) hmem heq') ?_ rfl ?_ 0 rfl rfl
        · refine h.of_entry o (Function.update_self _ _ _) (Function.update_self _ _ _) ?_ rfl rfl
            h.isOpen h.interest
          exact ho.imp_right fun hactive => not_softwareActive_of_subset hactive rfl
            List.mem_of_mem_erase (by simp)
        · simp [Slot.entry]
      | true =>
        have heq := EpollReactor.beginOperation_of_empty hvalid hempty
        have heq' := EpollReactor.beginOperation_of_empty (r := r)
          (show (r.operations s.tag).valid = true by rw [hentry]; exact hvalid)
          (by rw [hentry]; exact hempty)
        refine h.respondAlike (respond_begin_none hmem heq)
          (respond_begin_none (s := { s with reactor := r }) hmem heq') ?_ rfl ?_ 0 rfl rfl
        · -- the clean-up closes the same source in both reactors
          refine h.of_entry o (EpollReactor.cleanupOperation_entry _ _) ?_ ?_ rfl rfl ?_ ?_
          · rw [EpollReactor.cleanupOperation_entry, hentry]
          · exact ho.imp_right fun hactive =>
              not_softwareActive_of_subset hactive rfl List.mem_of_mem_erase id
          · simp only [EpollReactor.cleanupOperation, EpollReactor.setEntry_kernel, hentry]
            exact (h.closeFd _).1
          · simp only [EpollReactor.cleanupOperation, EpollReactor.setEntry_kernel, hentry]
            exact (h.closeFd _).2
        · simp only [Slot.entry, EpollReactor.cleanupOperation_entry]
  · exact .inl ⟨by simp [respond, hmem], by simp [respond, hmem]⟩

/-- The end of the operation of an I/O entry. -/
theorem IoAlike.finish (h : s.IoAlike r) : RespondAlike IoAlike s r .finish := by
  obtain ⟨o, hentry, ho⟩ := h.entry
  by_cases hmem : .ioEvent s.tag ∈ s.executing
  · refine h.respondAlike (respond_finish hmem (EpollReactor.finishOperation_eq _ _))
      (respond_finish (s := { s with reactor := r }) hmem (EpollReactor.finishOperation_eq _ _))
      ?_ rfl ?_ 0 rfl rfl
    · refine h.of_entry o (Function.update_self _ _ _) ?_ ?_ rfl rfl ?_ ?_
      · exact (Function.update_self _ _ _).trans (by rw [hentry])
      · exact ho.imp_right fun hactive =>
          not_softwareActive_of_subset hactive rfl id List.mem_of_mem_erase
      · simp only [EpollReactor.setEntry_kernel, hentry]
        exact (h.closeFd _).1
      · simp only [EpollReactor.setEntry_kernel, hentry]
        exact (h.closeFd _).2
    · simp [Slot.entry]
  · exact .inl ⟨by simp [respond, hmem], by simp [respond, hmem]⟩

/-- The operation of a software event, up to the call of the handler. -/
theorem IoAlike.beginSoftware (h : s.IoAlike r) : RespondAlike IoAlike s r .beginSoftware := by
  obtain ⟨o, hentry, ho⟩ := h.entry
  by_cases hmem : .softwareEvent s.tag ∈ s.queued
  · have hcalled : { s with reactor := r }.entry.handler = s.entry.handler := by
      simp only [Slot.entry, hentry]
    have hr := respond_beginSoftware (s := { s with reactor := r }) hmem
    rw [hcalled] at hr
    refine h.respondAlike (respond_beginSoftware hmem) hr ?_ rfl ?_ 0 rfl rfl
    · refine h.of_entry o (Function.update_self _ _ _) ?_ ?_ rfl rfl h.isOpen h.interest
      · exact (Function.update_self _ _ _).trans (by rw [hentry])
      · -- the operation is about to read the flag, so it was not different
        exact .inl (ho.resolve_right fun hactive => hactive (.inr (.inl hmem)))
    · simp [Slot.entry, EpollReactor.beginSoftwareOperation]
  · exact .inl ⟨by simp [respond, hmem], by simp [respond, hmem]⟩

/-- The end of the operation of a software event. -/
theorem IoAlike.finishSoftware (h : s.IoAlike r) : RespondAlike IoAlike s r .finishSoftware := by
  obtain ⟨o, hentry, ho⟩ := h.entry
  by_cases hmem : .softwareEvent s.tag ∈ s.executing
  · obtain rfl := ho.resolve_right fun hactive => hactive (.inr (.inr hmem))
    refine h.respondAlike
      (respond_finishSoftware hmem (EpollReactor.finishSoftwareOperation_eq _ _))
      (respond_finishSoftware (s := { s with reactor := r }) hmem
        (EpollReactor.finishSoftwareOperation_eq _ _)) ?_ rfl ?_ 0 rfl rfl
    · refine h.of_entry s.entry.isSoftwareEventOneshot (Function.update_self _ _ _) ?_ (.inl rfl)
        rfl rfl h.isOpen h.interest
      exact (Function.update_self _ _ _).trans (by rw [hentry])
    · simp [Slot.entry]
  · exact .inl ⟨by simp [respond, hmem], by simp [respond, hmem]⟩

/-- `Deregister()` -/
theorem IoAlike.deregister (h : s.IoAlike r) (closeOnDeregister : Bool) :
    RespondAlike IoAlike s r (.deregister closeOnDeregister) := by
  obtain ⟨o, hentry, ho⟩ := h.entry
  have hactive {reactor : EpollReactor H}
      (htriggers : reactor.triggeredSoftwareEvents = s.reactor.triggeredSoftwareEvents) :
      o = s.entry.isSoftwareEventOneshot ∨ ¬ { s with reactor : Slot H }.SoftwareActive :=
    ho.imp_right fun hactive => not_softwareActive_of_subset hactive htriggers id id
  have hrefused (result : Except ErrorCode Unit)
      (heq : s.reactor.derigsterImpl s.tag closeOnDeregister = (s.reactor, result))
      (heq' : r.derigsterImpl s.tag closeOnDeregister = (r, result)) :
      RespondAlike IoAlike s r (.deregister closeOnDeregister) := by
    refine h.respondAlike (respond_deregister ((if_pos h.isIo).trans heq))
      (respond_deregister (s := { s with reactor := r }) ((if_pos h.isIo).trans heq'))
      ?_ rfl rfl 0 rfl rfl
    exact h.of_entry o rfl hentry (hactive rfl) rfl rfl h.isOpen h.interest
  cases hvalid : s.entry.valid with
  | false =>
    refine hrefused _ (EpollReactor.derigsterImpl_of_not_valid hvalid _)
      (EpollReactor.derigsterImpl_of_not_valid ?_ _)
    rw [hentry]
    exact hvalid
  | true =>
    cases hremove : s.reactor.kernel.epollRemove s.entry.ioSource with
    | error ec =>
      -- the epoll call depends only on the descriptor and the interest in it
      have hremove' : r.kernel.epollRemove s.entry.ioSource = .error ec := by
        unfold Kernel.epollRemove at hremove ⊢
        rw [h.isOpen, h.interest]
        split_ifs at hremove ⊢ <;> exact hremove
      refine hrefused (.error ec) ?_ ?_
      · simp [EpollReactor.derigsterImpl, hvalid, hremove]
      · simp [EpollReactor.derigsterImpl, hentry, hvalid, hremove']
    | ok kernel =>
      have hkernel : s.reactor.kernel.isOpen s.entry.ioSource = true ∧
          (s.reactor.kernel.interest s.entry.ioSource).isSome = true := by
        unfold Kernel.epollRemove at hremove
        split_ifs at hremove with hopen hnone
        exact ⟨by simpa using hopen, by simpa [Option.isSome_iff_ne_none] using hnone⟩
      have heq := EpollReactor.derigsterImpl_eq hvalid hkernel.1 hkernel.2 closeOnDeregister
      have heq' := EpollReactor.derigsterImpl_eq (r := r)
        (show (r.operations s.tag).valid = true by rw [hentry]; exact hvalid)
        (by rw [hentry]; exact h.isOpen.trans hkernel.1)
        (by rw [hentry]; exact (congrArg Option.isSome h.interest).trans hkernel.2)
          closeOnDeregister
      simp only [hentry] at heq'
      refine h.respondAlike (respond_deregister ((if_pos h.isIo).trans heq))
        (respond_deregister (s := { s with reactor := r }) ((if_pos h.isIo).trans heq'))
        ?_ rfl ?_ 0 rfl rfl
      · refine h.of_entry o (Function.update_self _ _ _) (Function.update_self _ _ _)
          (hactive rfl) rfl rfl ?_ ?_
        · simp only [EpollReactor.setEntry_kernel]
          split
          · simp
          · exact h.isOpen
        · simp [EpollReactor.setEntry_kernel]
      · simp [Slot.entry]

/-- Two slots of an I/O source that differ at most in what is not read respond alike to
every call. -/
theorem IoAlike.respond (h : s.IoAlike r) : (call : Call) → RespondAlike IoAlike s r call
  | .event mask => h.event mask
  | .start opType resources => h.start opType resources
  | .ignored ev => h.ignored ev
  | .trigger => .inl ⟨by simp [Slot.respond, h.isIo], by simp [Slot.respond, h.isIo]⟩
  | .handleSoftwareEvents => h.handleSoftwareEvents
  | .begin => h.begin
  | .finish => h.finish
  | .beginSoftware => h.beginSoftware
  | .finishSoftware => h.finishSoftware
  | .deregister closeOnDeregister => h.deregister closeOnDeregister

/-! ## Software events -/

/-- The slot of a software event with another reactor that differs at most in what is not read. -/
structure SoftwareAlike (s : Slot H) (r : EpollReactor H) : Prop where
  isIo : s.isIo = false
  triggers : r.triggeredSoftwareEvents.count s.tag = s.triggers
  /-- There is no operation of an I/O entry. -/
  queued : .ioEvent s.tag ∉ s.queued
  executing : .ioEvent s.tag ∉ s.executing
  entry : ∃ asyncOperationOngoing releaseHandlerMemory closeIoSource,
    r.operations s.tag = { s.entry with
      asyncOperationOngoing, releaseHandlerMemory, closeIoSource } ∧
    (releaseHandlerMemory = s.entry.releaseHandlerMemory ∨ s.entry.isSoftwareEventOneshot = true)

/-- A call that both slots take, that leaves them alike and does not touch the kernel. -/
theorem SoftwareAlike.respondAlike (h : s.SoftwareAlike r) {call : Call} {posted : List Operation}
    {called : Option (Option H × Events)} {result : Except ErrorCode Unit}
    (hs : s.respond call = some (s₁, s.observe s₁.reactor posted called result))
    (hr : { s with reactor := r }.respond call = some ({ s₁ with reactor := r₁ },
      { s with reactor := r }.observe r₁ posted called result))
    (h₁ : s₁.SoftwareAlike r₁) (htag : s₁.tag = s.tag)
    (hkernel : s₁.reactor.kernel = s.reactor.kernel) (hkernel' : r₁.kernel = r.kernel)
    (k : ℕ) (hjobs : s₁.reactor.jobCount % 2 ^ 32 = (s.reactor.jobCount + k) % 2 ^ 32)
    (hjobs' : r₁.jobCount % 2 ^ 32 = (r.jobCount + k) % 2 ^ 32) :
    RespondAlike SoftwareAlike s r call := by
  obtain ⟨a, rl, c, hentry, -⟩ := h.entry
  obtain ⟨a₁, rl₁, c₁, hentry₁, -⟩ := h₁.entry
  refine .inr ⟨s₁, r₁, _, hs, ?_, h₁⟩
  rw [hr]
  rw [htag] at hentry₁
  simp only [observe, Slot.entry, hentry, hentry₁, hkernel, hkernel', arrivals_eq hjobs,
    arrivals_eq hjobs', htag, Bool.and_not_self]

/-- The slots stay alike if their entries do. -/
theorem SoftwareAlike.of_entry (h : s.SoftwareAlike r) (a rl c : Bool) {reactor : EpollReactor H}
    {queued executing : List Operation} {e : OperationEntry H} (he : reactor.operations s.tag = e)
    (hr₁ : r₁.operations s.tag = { e with
      asyncOperationOngoing := a, releaseHandlerMemory := rl, closeIoSource := c })
    (hrl : rl = e.releaseHandlerMemory ∨ e.isSoftwareEventOneshot = true)
    (htriggers : r₁.triggeredSoftwareEvents.count s.tag =
      reactor.triggeredSoftwareEvents.count s.tag)
    (hqueued : .ioEvent s.tag ∈ queued → .ioEvent s.tag ∈ s.queued)
    (hexecuting : .ioEvent s.tag ∈ executing → .ioEvent s.tag ∈ s.executing) :
    { s with reactor, queued, executing : Slot H }.SoftwareAlike r₁ where
  isIo := h.isIo
  triggers := htriggers
  queued hmem := h.queued (hqueued hmem)
  executing hmem := h.executing (hexecuting hmem)
  entry := ⟨a, rl, c, by simpa only [Slot.entry, he] using hr₁,
    by simpa only [Slot.entry, he] using hrl⟩

/-- `TriggerSoftwareEvent()` -/
theorem SoftwareAlike.trigger (h : s.SoftwareAlike r) :
    RespondAlike SoftwareAlike s r .trigger := by
  obtain ⟨a, rl, c, hentry, hrl⟩ := h.entry
  have hcan : r.canTriggerSoftwareEvent s.tag = s.reactor.canTriggerSoftwareEvent s.tag := by
    simp only [EpollReactor.canTriggerSoftwareEvent, hentry]
  by_cases hcan' : s.reactor.canTriggerSoftwareEvent s.tag = true
  · have heq : s.reactor.triggerSoftwareEvent s.tag = (_, .ok ()) := if_pos hcan'
    have heq' : r.triggerSoftwareEvent s.tag = (_, .ok ()) := if_pos (hcan.trans hcan')
    refine h.respondAlike (respond_trigger h.isIo heq)
      (respond_trigger (s := { s with reactor := r }) h.isIo heq') ?_ rfl rfl rfl 0 rfl rfl
    refine h.of_entry a rl c rfl hentry hrl ?_ id id
    have htriggers := h.triggers
    simp only [Slot.triggers] at htriggers
    simp only [List.count_append, htriggers]
  · have heq : s.reactor.triggerSoftwareEvent s.tag = (_, .error .apiError) := if_neg hcan'
    have heq' : r.triggerSoftwareEvent s.tag = (_, .error .apiError) :=
      if_neg fun hr => hcan' (hcan.symm.trans hr)
    refine h.respondAlike (respond_trigger h.isIo heq)
      (respond_trigger (s := { s with reactor := r }) h.isIo heq') ?_ rfl rfl rfl 0 rfl rfl
    exact h.of_entry a rl c rfl hentry hrl h.triggers id id

/-- `HandleSoftwareEvents()` -/
theorem SoftwareAlike.handleSoftwareEvents (h : s.SoftwareAlike r) :
    RespondAlike SoftwareAlike s r .handleSoftwareEvents := by
  obtain ⟨a, rl, c, hentry, hrl⟩ := h.entry
  obtain ⟨r₁, handled, heq, he, hkernel, htriggers, hjobs⟩ :=
    handleSoftwareEventsLoop_replicate s.tag s.triggers s.reactor [] 0
  obtain ⟨r₂, handled', heq', he', hkernel', htriggers', hjobs'⟩ :=
    handleSoftwareEventsLoop_replicate s.tag s.triggers r [] 0
  have hloop : { s with reactor := r }.triggers = s.triggers := h.triggers
  simp only [hentry] at heq' he' hjobs'
  refine h.respondAlike (respond_handleSoftwareEvents heq)
    (respond_handleSoftwareEvents (s := { s with reactor := r }) (by rw [hloop]; exact heq'))
    ?_ rfl hkernel hkernel' _ hjobs hjobs'
  refine h.of_entry a rl c he he' hrl ?_ ?_ id
  · rw [htriggers, htriggers']
    exact h.triggers
  · split <;> simp

/-- The operation of a software event, up to the call of the handler. -/
theorem SoftwareAlike.beginSoftware (h : s.SoftwareAlike r) :
    RespondAlike SoftwareAlike s r .beginSoftware := by
  obtain ⟨a, rl, c, hentry, hrl⟩ := h.entry
  by_cases hmem : .softwareEvent s.tag ∈ s.queued
  · have hcalled : { s with reactor := r }.entry.handler = s.entry.handler := by
      simp only [Slot.entry, hentry]
    have hr := respond_beginSoftware (s := { s with reactor := r }) hmem
    rw [hcalled] at hr
    refine h.respondAlike (respond_beginSoftware hmem) hr ?_ rfl rfl rfl 0 rfl rfl
    refine h.of_entry a rl c (Function.update_self _ _ _) ?_ hrl h.triggers List.mem_of_mem_erase ?_
    · exact (Function.update_self _ _ _).trans (by rw [hentry])
    · simp
  · exact .inl ⟨by simp [Slot.respond, hmem], by simp [Slot.respond, hmem]⟩

/-- The end of the operation of a software event. -/
theorem SoftwareAlike.finishSoftware (h : s.SoftwareAlike r) :
    RespondAlike SoftwareAlike s r .finishSoftware := by
  obtain ⟨a, rl, c, hentry, hrl⟩ := h.entry
  by_cases hmem : .softwareEvent s.tag ∈ s.executing
  · refine h.respondAlike
      (respond_finishSoftware hmem (EpollReactor.finishSoftwareOperation_eq _ _))
      (respond_finishSoftware (s := { s with reactor := r }) hmem
        (EpollReactor.finishSoftwareOperation_eq _ _)) ?_ rfl rfl rfl 0 rfl rfl
    -- the flag in which the entries may differ is reset
    refine h.of_entry a false c (Function.update_self _ _ _) ?_ (.inl rfl) h.triggers id
      List.mem_of_mem_erase
    refine (Function.update_self _ _ _).trans ?_
    rw [hentry]
    -- the handler of a one-shot event is released in any case
    rcases hrl with rfl | hflag
    · rfl
    · have hflag' : (s.reactor.operations s.tag).isSoftwareEventOneshot = true := hflag
      simp [hflag']
  · exact .inl ⟨by simp [Slot.respond, hmem], by simp [Slot.respond, hmem]⟩

/-- `DeregisterSoftwareEvent()` -/
theorem SoftwareAlike.deregister (h : s.SoftwareAlike r) (closeOnDeregister : Bool) :
    RespondAlike SoftwareAlike s r (.deregister closeOnDeregister) := by
  obtain ⟨a, rl, c, hentry, hrl⟩ := h.entry
  have hno : ¬ s.isIo = true := by simp [h.isIo]
  have hcase {reactor reactor' : EpollReactor H} {result : Except ErrorCode Unit}
      (heq : s.reactor.deregisterSoftwareEvent s.tag = (reactor, result))
      (heq' : r.deregisterSoftwareEvent s.tag = (reactor', result))
      (hkernel : reactor.kernel = s.reactor.kernel) (hkernel' : reactor'.kernel = r.kernel)
      (hjobs : reactor.jobCount = s.reactor.jobCount) (hjobs' : reactor'.jobCount = r.jobCount)
      (h₁ : { s with reactor : Slot H }.SoftwareAlike reactor') :
      RespondAlike SoftwareAlike s r (.deregister closeOnDeregister) :=
    h.respondAlike (respond_deregister ((if_neg hno).trans heq))
      (respond_deregister (s := { s with reactor := r }) ((if_neg hno).trans heq'))
      h₁ rfl hkernel hkernel' 0 (by rw [hjobs]; rfl) (by rw [hjobs']; rfl)
  -- the three branches read only fields in which the entries agree
  simp only [EpollReactor.deregisterSoftwareEvent, hentry] at hcase
  cases hvalid : s.entry.valid with
  | false =>
    refine hcase (if_pos (by simp [hvalid])) (if_pos (by simp [hvalid])) rfl rfl rfl rfl ?_
    exact h.of_entry a rl c rfl hentry hrl h.triggers id id
  | true =>
    cases hexec : s.entry.executionInProgress with
    | false =>
      refine hcase ((if_neg (by simp [hvalid])).trans (if_pos (by simp [hexec])))
        ((if_neg (by simp [hvalid])).trans (if_pos (by simp [hexec]))) rfl rfl rfl rfl ?_
      exact h.of_entry a rl c (Function.update_self _ _ _) (Function.update_self _ _ _) hrl
        h.triggers id id
    | true =>
      refine hcase ((if_neg (by simp [hvalid])).trans (if_neg (by simp [hexec])))
        ((if_neg (by simp [hvalid])).trans (if_neg (by simp [hexec]))) rfl rfl rfl rfl ?_
      exact h.of_entry a true c (Function.update_self _ _ _) (Function.update_self _ _ _) (.inl rfl)
        h.triggers id id

/-- Two slots of a software event that differ at most in what is not read respond alike to every
call. -/
theorem SoftwareAlike.respond (h : s.SoftwareAlike r) :
    (call : Call) → RespondAlike SoftwareAlike s r call
  | .event _ | .start _ _ | .ignored _ =>
    .inl ⟨by simp [Slot.respond, h.isIo], by simp [Slot.respond, h.isIo]⟩
  | .trigger => h.trigger
  | .handleSoftwareEvents => h.handleSoftwareEvents
  | .begin => .inl ⟨by simp [Slot.respond, h.queued], by simp [Slot.respond, h.queued]⟩
  | .finish => .inl ⟨by simp [Slot.respond, h.executing], by simp [Slot.respond, h.executing]⟩
  | .beginSoftware => h.beginSoftware
  | .finishSoftware => h.finishSoftware
  | .deregister closeOnDeregister => h.deregister closeOnDeregister

end Slot

end Asrt.Reactor.SlotReuse
