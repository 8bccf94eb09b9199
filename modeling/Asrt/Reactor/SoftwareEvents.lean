import Asrt.Reactor.LifeCycle
import Asrt.ToMathlib.VectorOps

/-!
# Software events

The reactor with the threads that use its software events at the same time: a thread in
`RegisterOneShotSoftwareEvent()` or `RegisterPersistentSoftwareEvent()`, threads that trigger and
deregister, the reactor thread in `HandleSoftwareEvents()`, and executor threads that run the
operations it posts. No I/O events are registered.

The calls are cut where they give up a mutex. `RegisterImpl()` visits the entries and writes to the
one it has found as in `LifeCycle`. `TriggerSoftwareEvent()` looks at the entry under the mutex of
the entry and records the tag under another one. `HandleSoftwareEvents()` takes the mutex of each
entry in turn; it walks the tags that are recorded when it starts, and hands its operations to the
executor in the end. An operation gives the mutex up while its handler runs.

`triggered_software_events_` is never cleared: every pass visits all tags that were ever recorded.
A pass walks the vector without its mutex, so a tag that is recorded meanwhile may move the vector
under the walk. The model has no value for that and goes on by position.

## Main definitions

* `EpollReactor.deregisterSoftwareEvent`, `EpollReactor.finishSoftwareOperation`: the operations on
  an entry.
* `State.visit`: what the reactor thread does with one recorded tag.
* `machine`: the reactor and its threads, as a machine.

## Main results

* `State.run_pass`: the visits of a pass make up `HandleSoftwareEvents()`.
-/

namespace Asrt.Reactor

namespace EpollReactor

variable {H : Type}

/-- `DeregisterSoftwareEvent()`: the handler is released at once, or by the operation that is
executing. -/
def deregisterSoftwareEvent (r : EpollReactor H) (tag : HandlerTag) :
    EpollReactor H × Except ErrorCode Unit :=
  let entry := r.operations tag
  if !entry.valid then (r, .error .reactorEntryInvalid)
  else if !entry.executionInProgress then
    (r.setEntry tag { entry with handler := none, valid := false }, .ok ())
  else (r.setEntry tag { entry with releaseHandlerMemory := true, valid := false }, .ok ())

/-- The check of `TriggerSoftwareEvent()`. -/
def canTriggerSoftwareEvent (r : EpollReactor H) (tag : HandlerTag) : Bool :=
  (r.operations tag).valid && (r.operations tag).monitoredEvents.hasSoftwareEvent

/-- `TriggerSoftwareEvent()` -/
def triggerSoftwareEvent (r : EpollReactor H) (tag : HandlerTag) :
    EpollReactor H × Except ErrorCode Unit :=
  if r.canTriggerSoftwareEvent tag then
    ({ r with triggeredSoftwareEvents := r.triggeredSoftwareEvents ++ [tag] }, .ok ())
  else (r, .error .apiError)

/-- The operation of a software event up to the call of the handler, which is not checked. -/
def beginSoftwareOperation (r : EpollReactor H) (tag : HandlerTag) : EpollReactor H :=
  r.setEntry tag { r.operations tag with executionInProgress := true }

/-- The operation of a software event after its handler has returned. -/
def finishSoftwareOperation (r : EpollReactor H) (tag : HandlerTag) : EpollReactor H :=
  let op := { r.operations tag with executionInProgress := false }
  let op :=
    if op.isSoftwareEventOneshot then
      { op with handler := none, releaseHandlerMemory := false, valid := false }
    else if op.releaseHandlerMemory then
      { op with handler := none, releaseHandlerMemory := false }
    else op
  r.setEntry tag { op with handlerPosted := false }

/-- `DeregisterSoftwareEvent()` on a valid entry, in one equation. -/
theorem deregisterSoftwareEvent_eq {r : EpollReactor H} {tag : HandlerTag}
    (hvalid : (r.operations tag).valid = true) :
    r.deregisterSoftwareEvent tag = (r.setEntry tag { r.operations tag with
      handler := if (r.operations tag).executionInProgress then (r.operations tag).handler else none
      releaseHandlerMemory := (r.operations tag).releaseHandlerMemory ||
        (r.operations tag).executionInProgress
      valid := false }, .ok ()) := by
  cases hexec : (r.operations tag).executionInProgress <;>
    simp [deregisterSoftwareEvent, hvalid, hexec]

/-- After its operation the entry of a one-shot event is free; that of another event keeps what was
not to be released. -/
theorem finishSoftwareOperation_eq (r : EpollReactor H) (tag : HandlerTag) :
    r.finishSoftwareOperation tag = r.setEntry tag { r.operations tag with
      executionInProgress := false
      handler := if (r.operations tag).isSoftwareEventOneshot ∨
          (r.operations tag).releaseHandlerMemory then none
        else (r.operations tag).handler
      releaseHandlerMemory := false
      valid := (r.operations tag).valid && !(r.operations tag).isSoftwareEventOneshot
      handlerPosted := false } := by
  cases hflag : (r.operations tag).isSoftwareEventOneshot with
  | true => simp [finishSoftwareOperation, hflag]
  | false =>
    cases hrelease : (r.operations tag).releaseHandlerMemory with
    | true => simp [finishSoftwareOperation, hflag, hrelease]
    | false => simp [finishSoftwareOperation, hflag, hrelease]

end EpollReactor

namespace Software

open LifeCycle (RegistrationId RegisterCall RegisterStage EntryField visitEntry)

/-- A call of `TriggerSoftwareEvent()`. -/
structure TriggerCall where
  tag : HandlerTag
  /-- Ghost: the registration whose client makes the call. -/
  registration : RegistrationId
deriving DecidableEq, Repr

/-- A recorded tag. -/
structure Trigger extends TriggerCall where
  /-- Ghost: an operation was posted for it. -/
  isPosted : Bool := false
deriving DecidableEq, Repr

/-- The operation of a software event. -/
structure SoftwareOperation where
  tag : HandlerTag
  /-- Ghost: the registration that was triggered. -/
  registration : RegistrationId
deriving DecidableEq, Repr

/-- Ghost: the call of a handler. -/
structure Invocation where
  /-- The handler that is called. -/
  handler : Option RegistrationId
  /-- The registration that was triggered. -/
  registration : RegistrationId
  /-- `DeregisterSoftwareEvent()` had returned for this registration. -/
  deregistered : Bool
deriving DecidableEq, Repr

/-- Ghost: what has become of a registration. -/
structure Registration where
  isOneshot : Bool := false
  /-- The entry that was found for it. -/
  slot : Option HandlerTag := none
  /-- The client has got the tag. -/
  returned : Bool := false
  /-- `DeregisterSoftwareEvent()` has returned success. -/
  deregistered : Bool := false
  /-- The number of successful calls of `TriggerSoftwareEvent()`. -/
  triggered : ℕ := 0
deriving DecidableEq, Repr

/-- The reactor and the threads that use it. -/
structure State where
  reactor : EpollReactor RegistrationId
  /-- The call of `RegisterImpl()` that holds `registration_mtx_`. -/
  registering : Option RegisterCall := none
  /-- The calls of `TriggerSoftwareEvent()` that have passed their check. -/
  calls : List TriggerCall := []
  /-- `triggered_software_events_` -/
  triggers : List Trigger := []
  /-- The positions in `triggered_software_events_` that the pass has still to visit. -/
  walk : List ℕ := []
  /-- The operations of the pass. -/
  opQueue : List SoftwareOperation := []
  /-- The posted operations. -/
  queued : List SoftwareOperation := []
  /-- The operations whose handlers are running. -/
  executing : List SoftwareOperation := []
  /-- Ghost: the calls of handlers so far. -/
  invocations : List Invocation := []
  /-- Ghost: the next unused name. -/
  nextId : RegistrationId := 0
  /-- Ghost: the history of the registrations. -/
  registrations : RegistrationId → Registration := fun _ => {}

/-- The steps. -/
inductive Action
  /-- `RegisterOneShotSoftwareEvent()` or `RegisterPersistentSoftwareEvent()` takes
  `registration_mtx_`. -/
  | register (isOneshot : Bool)
  /-- The next step of the call. -/
  | registerStep
  /-- The check of `TriggerSoftwareEvent()`, with the tag of a registration. -/
  | trigger (id : RegistrationId)
  /-- `TriggerSoftwareEvent()` records the tag. -/
  | push (call : TriggerCall)
  /-- `DeregisterSoftwareEvent()` -/
  | deregister (tag : HandlerTag)
  /-- `HandleSoftwareEvents()` starts. -/
  | walk
  /-- `HandleSoftwareEvents()` visits the next tag. -/
  | visit
  /-- `HandleSoftwareEvents()` has returned, and the executor takes the operations. -/
  | post
  /-- An executor thread starts a posted operation, up to the call of its handler. -/
  | begin (op : SoftwareOperation)
  /-- The handler that an operation has called returns, and the operation ends. -/
  | finish (op : SoftwareOperation)
deriving DecidableEq, Repr

namespace State

/-- The entry of a tag. -/
abbrev entry (s : State) (tag : HandlerTag) : OperationEntry RegistrationId :=
  s.reactor.operations tag

/-- Replace the entry of a registration in the history. -/
def setRegistration (s : State) (id : RegistrationId) (g : Registration) : State :=
  { s with registrations := Function.update s.registrations id g }

/-- What `RegisterImpl()` does next. -/
def registerStep (s : State) (call : RegisterCall) : State :=
  match call.stage with
  | .visit (it :: its) position lastUsedEntry =>
    match visitEntry call.ioSource it (s.entry it) position lastUsedEntry with
    | .error _ => { s with registering := none }
    | .ok (position, lastUsedEntry) =>
      { s with registering := some { call with stage := .visit its position lastUsedEntry } }
  | .visit [] position lastUsedEntry =>
    let reactor :=
      if s.reactor.usedOperationsEnd ≠ s.reactor.size then
        { s.reactor with
          usedOperationsEnd := (lastUsedEntry.map (· + 1)).getD s.reactor.usedOperationsEnd }
      else s.reactor
    match position with
    | none => { s with reactor, registering := none }
    | some tag => { s with reactor, registering := some { call with stage := .add tag } }
  | .add tag =>
    -- epoll is not asked; the flag of an entry is set here and never reset
    { s with
      reactor := s.reactor.setEntry tag { s.entry tag with
        isSoftwareEventOneshot := (s.entry tag).isSoftwareEventOneshot ||
          decide (call.events.softwareEvent = SoftwareEventType.oneshot) }
      registering := some { call with stage := .write tag .ioSource }
      }.setRegistration call.id { s.registrations call.id with slot := some tag }
  | .write tag field =>
    let s := { s with reactor := s.reactor.setEntry tag (call.write (s.entry tag) field) }
    match field.next with
    | some next => { s with registering := some { call with stage := .write tag next } }
    | none =>
      { s with registering := none }.setRegistration call.id
        { s.registrations call.id with returned := true }

/-- The check of `TriggerSoftwareEvent()`: the call fails, or will succeed. -/
def trigger (s : State) (id : RegistrationId) (tag : HandlerTag) : State :=
  if s.reactor.canTriggerSoftwareEvent tag then
    { s with calls := s.calls ++ [TriggerCall.mk tag id] }.setRegistration id
      { s.registrations id with triggered := (s.registrations id).triggered + 1 }
  else s

/-- `DeregisterSoftwareEvent()`, for the registration that holds the entry. -/
def deregister (s : State) (tag : HandlerTag) : State :=
  match s.reactor.deregisterSoftwareEvent tag with
  | (reactor, .error _) => { s with reactor }
  | (reactor, .ok ()) =>
    match (s.entry tag).handler with
    | none => { s with reactor }
    | some id =>
      { s with reactor }.setRegistration id { s.registrations id with deregistered := true }

/-- The visit of one recorded tag. -/
def visit (s : State) (position : ℕ) (t : Trigger) : State :=
  match EpollReactor.handleSoftwareEventsLoop [t.tag] s.reactor [] 0 with
  | (reactor, [], _) => { s with reactor }
  | (reactor, _ :: _, _) =>
    { s with
      reactor
      triggers := s.triggers.set position { t with isPosted := true }
      opQueue := s.opQueue ++ [⟨t.tag, t.registration⟩] }

/-- The start of an operation: the handler of the entry is called. -/
def beginOperation (s : State) (op : SoftwareOperation) : State :=
  { s with
    reactor := s.reactor.beginSoftwareOperation op.tag
    queued := s.queued.erase op
    executing := op :: s.executing
    invocations := s.invocations ++
      [⟨(s.entry op.tag).handler, op.registration,
        (s.registrations op.registration).deregistered⟩] }

/-- The end of an operation. -/
def finishOperation (s : State) (op : SoftwareOperation) : State :=
  { s with
    reactor := s.reactor.finishSoftwareOperation op.tag
    executing := s.executing.erase op }

/-- The step labelled by an action, if it is enabled. -/
def step (s : State) : Action → Option State
  | .register isOneshot =>
    if s.registering.isNone then
      some ({ s with
        registering := some {
          id := s.nextId
          ioSource := kInvalidNativeHandle
          events := if isOneshot then .oneShotSoftwareEvent else .persistentSoftwareEvent
          stage := .visit (List.range (min (s.reactor.usedOperationsEnd + 1) s.reactor.size))
            none none }
        nextId := s.nextId + 1 }.setRegistration s.nextId { isOneshot })
    else none
  | .registerStep => s.registering.map s.registerStep
  | .trigger id =>
    if (s.registrations id).returned then (s.registrations id).slot.map (s.trigger id) else none
  | .push call =>
    if call ∈ s.calls then
      some { s with
        calls := s.calls.erase call
        triggers := s.triggers ++ [Trigger.mk call false] }
    else none
  | .deregister tag => some (s.deregister tag)
  | .walk =>
    if s.walk = [] ∧ s.opQueue = [] then
      some { s with walk := List.range s.triggers.length }
    else none
  | .visit =>
    match s.walk with
    | [] => none
    | position :: walk => s.triggers[position]?.map fun t => { s with walk }.visit position t
  | .post =>
    if s.walk = [] then some { s with opQueue := [], queued := s.queued ++ s.opQueue } else none
  | .begin op => if op ∈ s.queued then some (s.beginOperation op) else none
  | .finish op => if op ∈ s.executing then some (s.finishOperation op) else none

end State

/-- The machine: an empty reactor of any size. -/
def machine : ToMathlib.Machine State Action where
  init s := ∃ size, s = { reactor := { size } }
  step := State.step

namespace State

@[simp] theorem setRegistration_self (s : State) (id : RegistrationId) (g : Registration) :
    (s.setRegistration id g).registrations id = g :=
  Function.update_self _ _ _

theorem setRegistration_of_ne {id id' : RegistrationId} (h : id' ≠ id) (s : State)
    (g : Registration) : (s.setRegistration id g).registrations id' = s.registrations id' :=
  Function.update_of_ne h _ _

/-- A deregistration changes the reactor and the history only. -/
theorem deregister_eq (s : State) (tag : HandlerTag) :
    ∃ reactor registrations, s.deregister tag = { s with reactor, registrations } := by
  unfold deregister
  split
  · exact ⟨_, _, rfl⟩
  · split
    · exact ⟨_, _, rfl⟩
    · exact ⟨_, _, rfl⟩

/-- A deregistration of an entry that is not valid fails. -/
theorem deregister_of_not_valid {s : State} {tag : HandlerTag}
    (hvalid : (s.entry tag).valid = false) : s.deregister tag = s := by
  simp [deregister, EpollReactor.deregisterSoftwareEvent, hvalid]

/-- A deregistration of a valid entry takes the handler, or leaves it to the operation that is
executing. -/
theorem deregister_of_valid {s : State} {tag : HandlerTag} {id : RegistrationId}
    (hvalid : (s.entry tag).valid = true) (hhandler : (s.entry tag).handler = some id) :
    s.deregister tag = { s with
      reactor := s.reactor.setEntry tag { s.entry tag with
        handler := if (s.entry tag).executionInProgress then some id else none
        releaseHandlerMemory :=
          (s.entry tag).releaseHandlerMemory || (s.entry tag).executionInProgress
        valid := false } }.setRegistration id
      { s.registrations id with deregistered := true } := by
  cases hprogress : (s.entry tag).executionInProgress with
  | true =>
    simp [deregister, EpollReactor.deregisterSoftwareEvent, hvalid, hhandler, hprogress]
  | false =>
    simp [deregister, EpollReactor.deregisterSoftwareEvent, hvalid, hhandler, hprogress]

/-- A visit that finds the entry deregistered does nothing. -/
theorem visit_of_not_valid {s : State} {t : Trigger} (hvalid : (s.entry t.tag).valid = false)
    (position : ℕ) : s.visit position t = s := by
  simp [visit, EpollReactor.handleSoftwareEventsLoop, hvalid]

/-- A visit that finds the entry valid posts an operation, whether it has posted one before
or not. -/
theorem visit_of_valid {s : State} {t : Trigger} (hvalid : (s.entry t.tag).valid = true)
    (position : ℕ) :
    ∃ jobCount, s.visit position t = { s with
      reactor := { s.reactor with jobCount }.setEntry t.tag
        { s.entry t.tag with handlerPosted := true }
      triggers := s.triggers.set position { t with isPosted := true }
      opQueue := s.opQueue ++ [⟨t.tag, t.registration⟩] } := by
  refine ⟨if (s.entry t.tag).isSoftwareEventOneshot then s.reactor.jobCount
    else Executor.fetchAdd s.reactor.jobCount 1, ?_⟩
  simp only [visit, EpollReactor.handleSoftwareEventsLoop, hvalid, Bool.not_true,
    Bool.false_eq_true, ↓reduceIte, List.nil_append]
  cases (s.entry t.tag).isSoftwareEventOneshot <;> rfl

/-! ## A pass that is not interrupted -/

/-- The loop of `HandleSoftwareEvents()` adds its operations to those that are there. -/
theorem handleSoftwareEventsLoop_append {H : Type} (tags : List HandlerTag) (r : EpollReactor H)
    (opQueue : List Operation) (handledEvents : ℕ) :
    EpollReactor.handleSoftwareEventsLoop tags r opQueue handledEvents =
      ((EpollReactor.handleSoftwareEventsLoop tags r [] 0).1,
        opQueue ++ (EpollReactor.handleSoftwareEventsLoop tags r [] 0).2.1,
        handledEvents + (EpollReactor.handleSoftwareEventsLoop tags r [] 0).2.2) := by
  induction tags generalizing r opQueue handledEvents with
  | nil => simp [EpollReactor.handleSoftwareEventsLoop]
  | cons tag tags ih =>
    cases hvalid : (r.operations tag).valid with
    | false =>
      simp only [EpollReactor.handleSoftwareEventsLoop, hvalid, Bool.not_false, ↓reduceIte]
      exact ih r opQueue handledEvents
    | true =>
      simp only [EpollReactor.handleSoftwareEventsLoop, hvalid, Bool.not_true, Bool.false_eq_true,
        ↓reduceIte, List.nil_append, Nat.zero_add]
      -- both accumulators go on from the operation of this tag
      rw [ih _ (opQueue ++ [_]), ih _ [_] 1]
      simp only [List.append_assoc, Nat.add_assoc]

/-- The loop of `HandleSoftwareEvents()` is its first visit and the loop over the rest. -/
theorem handleSoftwareEventsLoop_cons {H : Type} (tag : HandlerTag) (tags : List HandlerTag)
    (r : EpollReactor H) :
    EpollReactor.handleSoftwareEventsLoop (tag :: tags) r [] 0 =
      EpollReactor.handleSoftwareEventsLoop tags
        (EpollReactor.handleSoftwareEventsLoop [tag] r [] 0).1
        (EpollReactor.handleSoftwareEventsLoop [tag] r [] 0).2.1
        (EpollReactor.handleSoftwareEventsLoop [tag] r [] 0).2.2 := by
  cases hvalid : (r.operations tag).valid with
  | false => simp [EpollReactor.handleSoftwareEventsLoop, hvalid]
  | true => simp [EpollReactor.handleSoftwareEventsLoop, hvalid]

/-- The operations that were posted, as the executor gets them. -/
def operations (ops : List SoftwareOperation) : List Operation :=
  ops.map fun op => .softwareEvent op.tag

/-- A visit does to the reactor and to the queue what the loop does in one round, and the recorded
tags stay. -/
theorem visit_spec {s : State} {t : Trigger} {position : ℕ}
    (ht : s.triggers[position]? = some t) :
    (s.visit position t).walk = s.walk ∧
    (s.visit position t).triggers.map (·.tag) = s.triggers.map (·.tag) ∧
    (s.visit position t).reactor =
      (EpollReactor.handleSoftwareEventsLoop [t.tag] s.reactor [] 0).1 ∧
    operations (s.visit position t).opQueue = operations s.opQueue ++
      (EpollReactor.handleSoftwareEventsLoop [t.tag] s.reactor [] 0).2.1 := by
  cases hvalid : (s.entry t.tag).valid with
  | false =>
    rw [visit_of_not_valid hvalid]
    simp [EpollReactor.handleSoftwareEventsLoop, hvalid]
  | true =>
    have htags : (s.triggers.set position { t with isPosted := true }).map (·.tag) =
        s.triggers.map (·.tag) :=
      ToMathlib.map_set_of_eq (fun t : Trigger => t.tag) ht rfl
    simp only [visit, EpollReactor.handleSoftwareEventsLoop, hvalid, Bool.not_true,
      Bool.false_eq_true, ↓reduceIte, List.nil_append]
    exact ⟨trivial, htags, trivial, List.map_append⟩

/-- The visits of a pass make up the loop of `HandleSoftwareEvents()` over the tags that are still
to be visited. -/
theorem run_visits {s : State} {walk : List ℕ} (hwalk : s.walk = walk)
    (hlt : ∀ position ∈ walk, position < s.triggers.length) :
    ∃ t, machine.run ToMathlib.Machine.Always s (List.replicate walk.length .visit) = some t ∧
      t.walk = [] ∧
      t.reactor = (EpollReactor.handleSoftwareEventsLoop
        (walk.filterMap fun position => (s.triggers.map (·.tag))[position]?) s.reactor [] 0).1 ∧
      operations t.opQueue = operations s.opQueue ++ (EpollReactor.handleSoftwareEventsLoop
        (walk.filterMap fun position => (s.triggers.map (·.tag))[position]?)
          s.reactor [] 0).2.1 := by
  induction walk generalizing s with
  | nil => exact ⟨s, rfl, hwalk, rfl, (List.append_nil _).symm⟩
  | cons position walk ih =>
    have hposition := hlt position List.mem_cons_self
    obtain ⟨t, ht⟩ : ∃ t, s.triggers[position]? = some t :=
      ⟨_, List.getElem?_eq_getElem hposition⟩
    have hstep : s.step .visit = some ({ s with walk }.visit position t) := by
      simp [step, hwalk, ht]
    obtain ⟨hrest, htags, hreactor, hqueue⟩ := visit_spec (s := { s with walk }) ht
    -- a visit keeps the tags, so the positions that are left stay in range
    have hlength : ({ s with walk }.visit position t).triggers.length = s.triggers.length := by
      simpa using congrArg List.length htags
    obtain ⟨u, hrun, huwalk, hureactor, huqueue⟩ := ih hrest fun p hp =>
      hlength ▸ hlt p (List.mem_cons_of_mem _ hp)
    have htag : (s.triggers.map (·.tag))[position]? = some t.tag := by
      rw [List.getElem?_map, ht]
      rfl
    refine ⟨u, ?_, huwalk, ?_, ?_⟩
    · rw [List.length_cons, List.replicate_succ, ToMathlib.Machine.run, if_pos trivial]
      show (s.step .visit).bind _ = _
      rw [hstep]
      exact hrun
    · rw [List.filterMap_cons_some htag, handleSoftwareEventsLoop_cons,
        handleSoftwareEventsLoop_append, hureactor, htags, hreactor]
    · rw [List.filterMap_cons_some htag, handleSoftwareEventsLoop_cons,
        handleSoftwareEventsLoop_append, huqueue, htags, hreactor, hqueue, List.append_assoc]

/-- A pass that is not interrupted does what `HandleSoftwareEvents()` does with all recorded
tags. -/
theorem run_pass {s s₁ : State} (hs₁ : s.step .walk = some s₁) :
    ∃ t, machine.run ToMathlib.Machine.Always s₁
        (List.replicate s.triggers.length .visit) = some t ∧ t.walk = [] ∧
      t.reactor = (EpollReactor.handleSoftwareEventsLoop
        (s.triggers.map (·.tag)) s.reactor [] 0).1 ∧
      operations t.opQueue = (EpollReactor.handleSoftwareEventsLoop
        (s.triggers.map (·.tag)) s.reactor [] 0).2.1 := by
  obtain ⟨⟨-, hqueue⟩, hs₁⟩ := Option.ite_none_right_eq_some.mp hs₁
  obtain rfl := Option.some.inj hs₁
  -- the walk visits every position, so it meets the tags of all triggers in order
  have hall : ((List.range s.triggers.length).filterMap fun position =>
      (s.triggers.map (·.tag))[position]?) = s.triggers.map (·.tag) := by
    have hrange := ToMathlib.filterMap_getElem?_range (s.triggers.map (·.tag))
    rwa [List.length_map] at hrange
  obtain ⟨t, hrun, hwalk, hreactor, hops⟩ := run_visits
    (s := { s with walk := List.range s.triggers.length }) rfl fun _ => List.mem_range.mp
  rw [hall] at hreactor hops
  rw [List.length_range] at hrun
  refine ⟨t, hrun, hwalk, hreactor, ?_⟩
  rw [hops, hqueue]
  rfl

end State

end Software

end Asrt.Reactor
