import Asrt.Reactor.SoftwareEvents

/-!
# What is promised of software events, and the invariant behind it

`triggered_software_events_` keeps the tags that were handled, so that the next pass posts them
again; it does not say for which registration a tag was recorded; and the operation that a pass
posts calls the handler of the entry without a look at `valid_`. `State.Orderly` says what a step
has to avoid so that none of this shows:

* a pass does not find an entry valid for a tag that it has handled before, or that was recorded for
  another registration, or for a one-shot event whose operation is already posted or executing;
* an event is deregistered when all its triggers are answered;
* an entry is not given away while an operation of it is executing, nor to a persistent event after
  a one-shot event has used it;
* a tag is not used for a trigger when the entry belongs to another registration;
* a tag is not recorded during a pass, which walks the vector without its mutex.

The invariant is that of the accounts (`State.Inv`) and of the table of entries (`State.TableOk`).
The lemmas at the end say which parts of a state they depend on.
-/

namespace Asrt.Reactor.Software

open LifeCycle (RegistrationId RegisterCall RegisterStage EntryField visitEntry)

namespace State

/-! ## The property -/

/-- How often the handler of a registration was invoked. -/
def invoked (s : State) (id : RegistrationId) : ℕ :=
  s.invocations.countP (·.handler = some id)

/-- The triggers of a registration that are on their way: to be recorded, recorded and not handled,
or with an operation that has not started. -/
def pending (s : State) (id : RegistrationId) : ℕ :=
  s.calls.countP (·.registration = id) +
    s.triggers.countP (fun t => t.registration = id ∧ t.isPosted = false) +
    (s.opQueue ++ s.queued).countP (·.registration = id)

@[simp] theorem invoked_setRegistration (s : State) (id id' : RegistrationId) (g : Registration) :
    (s.setRegistration id g).invoked id' = s.invoked id' := rfl

@[simp] theorem pending_setRegistration (s : State) (id id' : RegistrationId) (g : Registration) :
    (s.setRegistration id g).pending id' = s.pending id' := rfl

/-- The registration holds its entry. -/
def IsRegistered (s : State) (id : RegistrationId) : Prop :=
  ∃ tag, (s.registrations id).slot = some tag ∧ (s.entry tag).valid = true ∧
    (s.entry tag).handler = some id

/-- How often the handler of a registration is to be invoked for the triggers made so far. -/
def expected (s : State) (id : RegistrationId) : ℕ :=
  if (s.registrations id).isOneshot then min 1 (s.registrations id).triggered
  else (s.registrations id).triggered

/-- A trigger of the registration is not answered yet. -/
def Owed (s : State) (id : RegistrationId) : Prop := s.invoked id < s.expected id

instance (s : State) (id : RegistrationId) : Decidable (s.Owed id) :=
  inferInstanceAs (Decidable (_ < _))

/-- The steps that answer a trigger: `TriggerSoftwareEvent()` records the tag between two passes,
the reactor thread makes a pass, and an executor thread starts the operation. -/
def Answers (s : State) : Action → Prop
  | .push _ => s.walk = []
  | .walk | .visit | .post | .begin _ => True
  | .register _ | .registerStep | .trigger _ | .deregister _ | .finish _ => False

/-- What is promised of software events. -/
structure SoftwareEventsOk (s : State) : Prop where
  /-- A trigger of a persistent event has invoked the handler once, or is on its way. -/
  persistent : ∀ id, (s.registrations id).isOneshot = false →
    s.invoked id + s.pending id = (s.registrations id).triggered ∧
      (0 < s.pending id → s.IsRegistered id)
  /-- A one-shot event that was triggered has invoked its handler once, or a trigger is on
  its way. -/
  oneshot : ∀ id, (s.registrations id).isOneshot = true →
    s.invoked id ≤ 1 ∧ (0 < (s.registrations id).triggered →
      s.invoked id = 1 ∨ 0 < s.pending id ∧ s.IsRegistered id)
  /-- A trigger that is owed an invocation can be answered: it is recorded, a pass posts its
  operation, and this calls the handler. -/
  answered : ∀ id, s.Owed id → ∃ s', machine.Leads Answers s s' ∧
    s'.invocations = s.invocations ++ [⟨some id, id, false⟩]
  /-- The handler that is invoked is that of the registration that was triggered, and this was not
  deregistered before. -/
  invocations : ∀ i ∈ s.invocations, i.handler = some i.registration ∧ i.deregistered = false

/-! ## The condition -/

/-- No operation of the tag is posted or executing. -/
def IsIdle (s : State) (tag : HandlerTag) : Prop :=
  ∀ op ∈ s.opQueue ++ s.queued ++ s.executing, op.tag ≠ tag

instance (s : State) (tag : HandlerTag) : Decidable (s.IsIdle tag) :=
  inferInstanceAs (Decidable (∀ _ ∈ _, _))

/-- A visit finds the entry deregistered, or it is the first visit for a trigger of the registration
that holds the entry, and no operation of a one-shot event is posted or executing. -/
def VisitsOnce (s : State) (t : Trigger) : Prop :=
  (s.entry t.tag).valid = true → t.isPosted = false ∧
    (s.entry t.tag).handler = some t.registration ∧
    ((s.entry t.tag).isSoftwareEventOneshot = true → s.IsIdle t.tag)

instance (s : State) (t : Trigger) : Decidable (s.VisitsOnce t) :=
  inferInstanceAs (Decidable (_ → _))

/-- `RegisterImpl()` takes an entry of which no operation is executing, and takes one that a
one-shot event has used only for a one-shot event. -/
def TakesUnused (s : State) (call : RegisterCall) : Prop :=
  match call.stage with
  | .add tag => (∀ op ∈ s.executing, op.tag ≠ tag) ∧
      (call.events.softwareEvent ≠ .oneshot → (s.entry tag).isSoftwareEventOneshot = false)
  | .visit _ _ _ | .write _ _ => True

instance (s : State) (call : RegisterCall) : Decidable (s.TakesUnused call) :=
  match hstage : call.stage with
  | .add tag => decidable_of_iff ((∀ op ∈ s.executing, op.tag ≠ tag) ∧
      (call.events.softwareEvent ≠ .oneshot → (s.entry tag).isSoftwareEventOneshot = false))
      (by rw [TakesUnused, hstage])
  | .visit _ _ _ | .write _ _ => .isTrue (by rw [TakesUnused, hstage]; trivial)

/-- The condition on a step. -/
def Orderly (s : State) : Action → Prop
  | .registerStep => ∀ call ∈ s.registering, s.TakesUnused call
  | .trigger id => ∀ tag ∈ (s.registrations id).slot, (s.entry tag).valid = true →
      (s.entry tag).handler = some id
  | .deregister tag => (s.entry tag).valid = true → ∀ id ∈ (s.entry tag).handler, ¬ s.Owed id
  | .visit => ∀ position ∈ s.walk.head?, ∀ t ∈ s.triggers[position]?, s.VisitsOnce t
  | .push _ => s.walk = []
  | .register _ | .walk | .post | .begin _ | .finish _ => True

instance (s : State) : (a : Action) → Decidable (s.Orderly a)
  | .registerStep => inferInstanceAs (Decidable (∀ _ ∈ _, _))
  | .trigger _ => inferInstanceAs (Decidable (∀ _ ∈ _, _))
  | .deregister _ => inferInstanceAs (Decidable (_ → ∀ _ ∈ _, _))
  | .visit => inferInstanceAs (Decidable (∀ _ ∈ _, ∀ _ ∈ _, _))
  | .push _ => inferInstanceAs (Decidable (_ = _))
  | .register _ | .walk | .post | .begin _ | .finish _ => inferInstanceAs (Decidable True)

/-! ## The invariant -/

/-- What holds of an entry. -/
structure EntryOk (s : State) (tag : HandlerTag) : Prop where
  /-- A valid entry holds the handler of the registration that it was found for. If that is a
  one-shot event whose handler was invoked, the operation is still executing. -/
  valid : (s.entry tag).valid = true → ∃ id, (s.entry tag).handler = some id ∧
    (s.registrations id).slot = some tag ∧ (s.registrations id).deregistered = false ∧
    (s.registrations id).isOneshot = (s.entry tag).isSoftwareEventOneshot ∧
    ((s.registrations id).isOneshot = true → 0 < s.invoked id → ∃ op ∈ s.executing, op.tag = tag)
  inProgress : (s.entry tag).executionInProgress = true → ∃ op ∈ s.executing, op.tag = tag
  /-- A handler is left to be released by an operation after the deregistration only. -/
  release : (s.entry tag).releaseHandlerMemory = true →
    (s.entry tag).valid = false ∧ ∃ op ∈ s.executing, op.tag = tag

/-- What holds of an operation that is posted: its entry holds the handler that is to be invoked. -/
structure QueuedOk (s : State) (op : SoftwareOperation) : Prop where
  valid : (s.entry op.tag).valid = true
  handler : (s.entry op.tag).handler = some op.registration
  first : (s.entry op.tag).isSoftwareEventOneshot = true → s.invoked op.registration = 0

/-- What holds of an operation that is executing: the entry was not given away. -/
structure ExecutingOk (s : State) (op : SoftwareOperation) : Prop where
  slot : (s.registrations op.registration).slot = some op.tag
  invoked : 0 < s.invoked op.registration
  isOneshot : (s.registrations op.registration).isOneshot =
    (s.entry op.tag).isSoftwareEventOneshot
  handler : (s.entry op.tag).valid = true → (s.entry op.tag).handler = some op.registration

/-- What the writes of `RegisterImpl()` have done to the entry when the given member is the next. -/
def Written (s : State) (id : RegistrationId) (tag : HandlerTag) : EntryField → Prop
  | .ioSource | .handler =>
    (s.entry tag).valid = false ∧ (s.registrations id).deregistered = false
  | .valid => (s.entry tag).valid = false ∧ (s.registrations id).deregistered = false ∧
    (s.entry tag).handler = some id
  | .monitoredEvents | .capturedEvents | .handlerPosted =>
    (s.entry tag).valid = true → (s.entry tag).handler = some id

/-- What holds of the entry that `RegisterImpl()` has found. -/
def StageOk (s : State) (call : RegisterCall) : Prop :=
  match call.stage with
  | .visit _ position _ => (s.registrations call.id).slot = none ∧
      (s.registrations call.id).deregistered = false ∧
      ∀ tag ∈ position, (s.entry tag).valid = false
  | .add tag => (s.registrations call.id).slot = none ∧
      (s.registrations call.id).deregistered = false ∧ (s.entry tag).valid = false
  | .write tag field => (s.registrations call.id).slot = some tag ∧
      (∀ op ∈ s.executing, op.tag ≠ tag) ∧
      (s.registrations call.id).isOneshot = (s.entry tag).isSoftwareEventOneshot ∧
      s.Written call.id tag field

/-- What holds of a call of `RegisterImpl()`. -/
structure CallOk (s : State) (call : RegisterCall) : Prop where
  named : call.id < s.nextId
  returned : (s.registrations call.id).returned = false
  isOneshot : (s.registrations call.id).isOneshot =
    decide (call.events.softwareEvent = SoftwareEventType.oneshot)
  stage : s.StageOk call

/-- What holds of the table of entries and of the operations. -/
structure TableOk (s : State) : Prop where
  entry : ∀ tag, s.EntryOk tag
  queue : ∀ op ∈ s.opQueue ++ s.queued, s.QueuedOk op
  executing : ∀ op ∈ s.executing, s.ExecutingOk op
  /-- A one-shot event has one operation. -/
  single : ∀ tag, (s.entry tag).isSoftwareEventOneshot = true →
    (s.opQueue ++ s.queued ++ s.executing).countP (·.tag = tag) ≤ 1

/-- The invariant. -/
structure Inv (s : State) : Prop extends TableOk s where
  invocations : ∀ i ∈ s.invocations, i.handler = some i.registration ∧ i.deregistered = false
  count : ∀ id, s.invoked id + s.pending id = (s.registrations id).triggered
  oneshot : ∀ id, (s.registrations id).isOneshot = true → s.invoked id ≤ 1
  owed : ∀ id, s.Owed id → s.IsRegistered id
  named : ∀ id, s.nextId ≤ id → s.registrations id = {}
  silent : ∀ id, (s.registrations id).returned = false → (s.registrations id).triggered = 0
  call : ∀ call, s.registering = some call → s.CallOk call

variable {s s' : State} {id : RegistrationId} {tag : HandlerTag} {op : SoftwareOperation}

/-- A registration whose client has not got the tag has no trigger and no invocation. -/
theorem Inv.quiet (h : s.Inv) (hreturned : (s.registrations id).returned = false) :
    s.invoked id = 0 ∧ s.pending id = 0 := by
  have hcount := h.count id
  have hsilent := h.silent id hreturned
  omega

/-- A registration with a posted operation has a trigger on its way. -/
theorem pending_pos_of_mem (hop : op ∈ s.opQueue ++ s.queued) : 0 < s.pending op.registration := by
  have hcount : 0 < (s.opQueue ++ s.queued).countP (·.registration = op.registration) :=
    List.countP_pos_iff.mpr ⟨op, hop, by simp⟩
  simp only [pending]
  omega

/-- A registration with a posted operation is owed an invocation. -/
theorem Inv.owed_of_mem (h : s.Inv) (hop : op ∈ s.opQueue ++ s.queued) :
    s.Owed op.registration := by
  have hpending := pending_pos_of_mem hop
  have hcount := h.count op.registration
  have hqueued := h.queue op hop
  -- the entry holds the registration of the operation
  obtain ⟨id, hhandler, -, -, honeshot, -⟩ := (h.entry op.tag).valid hqueued.valid
  obtain rfl : op.registration = id := Option.some.inj (hqueued.handler.symm.trans hhandler)
  simp only [Owed, expected]
  cases hflag : (s.registrations op.registration).isOneshot with
  | false => simp; omega
  | true =>
    have hfirst := hqueued.first (honeshot.symm.trans hflag)
    simp; omega

/-! ## Frames -/

/-- No operation of an idle tag is counted. -/
theorem IsIdle.countP_eq_zero (h : s.IsIdle tag) :
    (s.opQueue ++ s.queued ++ s.executing).countP (·.tag = tag) = 0 := by
  rw [List.countP_eq_zero]
  intro op hop
  simpa using h op hop

/-- Two entries that hold the same registration. -/
structure SameHandler (e e' : OperationEntry RegistrationId) : Prop where
  valid : e'.valid = e.valid
  handler : e'.handler = e.handler
  isSoftwareEventOneshot : e'.isSoftwareEventOneshot = e.isSoftwareEventOneshot

/-- Two entries that agree in what the invariant is about. -/
structure SameEntry (e e' : OperationEntry RegistrationId) : Prop extends SameHandler e e' where
  executionInProgress : e'.executionInProgress = e.executionInProgress
  releaseHandlerMemory : e'.releaseHandlerMemory = e.releaseHandlerMemory

/-- An entry agrees with itself. -/
theorem SameEntry.refl (e : OperationEntry RegistrationId) : SameEntry e e :=
  ⟨⟨rfl, rfl, rfl⟩, rfl, rfl⟩

/-- The entries of a table, one of which is replaced by a similar one. -/
theorem SameEntry.update (operations : HandlerTag → OperationEntry RegistrationId)
    {e : OperationEntry RegistrationId} (h : SameEntry (operations tag) e) (u : HandlerTag) :
    SameEntry (operations u) (Function.update operations tag e u) := by
  by_cases hu : u = tag
  · subst hu
    rwa [Function.update_self]
  · rw [Function.update_of_ne hu]
    exact .refl _

/-- Two histories of a registration with the same entry. -/
structure SameSlot (g g' : Registration) : Prop where
  slot : g'.slot = g.slot
  isOneshot : g'.isOneshot = g.isOneshot

/-- Two histories of a registration that agree in what the table is about. -/
structure SameHolder (g g' : Registration) : Prop extends SameSlot g g' where
  deregistered : g'.deregistered = g.deregistered

/-- A history agrees with itself. -/
theorem SameHolder.refl (g : Registration) : SameHolder g g := ⟨⟨rfl, rfl⟩, rfl⟩

/-- The histories, one of which is replaced by a similar one. -/
theorem SameHolder.update (registrations : RegistrationId → Registration) {g : Registration}
    (h : SameHolder (registrations id) g) (id' : RegistrationId) :
    SameHolder (registrations id') (Function.update registrations id g id') := by
  by_cases hid : id' = id
  · subst hid
    rwa [Function.update_self]
  · rw [Function.update_of_ne hid]
    exact .refl _

/-- An entry that is not changed, while no operation of it ends. -/
theorem EntryOk.congr (h : s.EntryOk tag) (hentry : SameEntry (s.entry tag) (s'.entry tag))
    (hholder : ∀ id, (s.registrations id).slot = some tag →
      SameHolder (s.registrations id) (s'.registrations id))
    (hinvoked : ∀ id, (s.registrations id).slot = some tag → s'.invoked id = s.invoked id)
    (hexecuting : ∀ op ∈ s.executing, op.tag = tag → op ∈ s'.executing) : s'.EntryOk tag where
  valid hvalid := by
    rw [hentry.valid] at hvalid
    obtain ⟨id, hhandler, hslot, hlive, honeshot, hrunning⟩ := h.valid hvalid
    have hsame := hholder id hslot
    refine ⟨id, hentry.handler.trans hhandler, hsame.slot.trans hslot,
      hsame.deregistered.trans hlive, ?_, ?_⟩
    · rw [hsame.isOneshot, hentry.isSoftwareEventOneshot]
      exact honeshot
    · rw [hsame.isOneshot, hinvoked id hslot]
      intro hone hpos
      obtain ⟨op, hop, htag⟩ := hrunning hone hpos
      exact ⟨op, hexecuting op hop htag, htag⟩
  inProgress hprogress := by
    rw [hentry.executionInProgress] at hprogress
    obtain ⟨op, hop, htag⟩ := h.inProgress hprogress
    exact ⟨op, hexecuting op hop htag, htag⟩
  release hrelease := by
    rw [hentry.releaseHandlerMemory] at hrelease
    obtain ⟨hvalid, op, hop, htag⟩ := h.release hrelease
    exact ⟨hentry.valid.trans hvalid, op, hexecuting op hop htag, htag⟩

/-- An operation in the queue whose entry is not changed. -/
theorem QueuedOk.congr (h : s.QueuedOk op)
    (hentry : SameHandler (s.entry op.tag) (s'.entry op.tag))
    (hinvoked : s'.invoked op.registration = s.invoked op.registration) : s'.QueuedOk op where
  valid := hentry.valid.trans h.valid
  handler := hentry.handler.trans h.handler
  first := by
    rw [hentry.isSoftwareEventOneshot, hinvoked]
    exact h.first

/-- An operation that is executing, whose entry is not changed. -/
theorem ExecutingOk.congr (h : s.ExecutingOk op)
    (hentry : SameHandler (s.entry op.tag) (s'.entry op.tag))
    (hholder : SameSlot (s.registrations op.registration) (s'.registrations op.registration))
    (hinvoked : s.invoked op.registration ≤ s'.invoked op.registration) : s'.ExecutingOk op where
  slot := hholder.slot.trans h.slot
  invoked := lt_of_lt_of_le h.invoked hinvoked
  isOneshot := by
    rw [hholder.isOneshot, hentry.isSoftwareEventOneshot]
    exact h.isOneshot
  handler := by
    rw [hentry.valid, hentry.handler]
    exact h.handler

/-- A step that does not touch the entries and the operations. -/
theorem TableOk.congr (h : s.TableOk) (hentry : ∀ tag, SameEntry (s.entry tag) (s'.entry tag))
    (hholder : ∀ id tag, (s.registrations id).slot = some tag →
      SameHolder (s.registrations id) (s'.registrations id))
    (hinvocations : s'.invocations = s.invocations)
    (hqueue : (s'.opQueue ++ s'.queued).Perm (s.opQueue ++ s.queued))
    (hexecuting : s'.executing = s.executing) : s'.TableOk := by
  have hinvoked (id : RegistrationId) : s'.invoked id = s.invoked id := by
    rw [invoked, invoked, hinvocations]
  refine ⟨?_, ?_, ?_, ?_⟩
  · intro tag
    exact (h.entry tag).congr (hentry tag) (fun id => hholder id tag) (fun id _ => hinvoked id)
      fun op hop _ => hexecuting ▸ hop
  · intro op hop
    exact (h.queue op (hqueue.mem_iff.mp hop)).congr (hentry op.tag).toSameHandler (hinvoked _)
  · intro op hop
    have hold := h.executing op (hexecuting ▸ hop)
    exact hold.congr (hentry op.tag).toSameHandler (hholder _ _ hold.slot).toSameSlot
      (hinvoked _).ge
  · intro tag hflag
    rw [(hentry tag).isSoftwareEventOneshot] at hflag
    rw [hexecuting, (hqueue.append_right _).countP_eq]
    exact h.single tag hflag

/-- A registration holds its entry as long as the entry is not changed. -/
theorem IsRegistered.congr (h : s.IsRegistered id)
    (hentry : ∀ tag, (s.registrations id).slot = some tag →
      SameHandler (s.entry tag) (s'.entry tag))
    (hslot : (s'.registrations id).slot = (s.registrations id).slot) : s'.IsRegistered id := by
  obtain ⟨tag, htag, hvalid, hhandler⟩ := h
  exact ⟨tag, hslot.trans htag, (hentry tag htag).valid.trans hvalid,
    (hentry tag htag).handler.trans hhandler⟩

/-- An entry that `RegisterImpl()` has made valid holds the handler of the call. -/
theorem Written.handler {field : EntryField} (h : s.Written id tag field)
    (hvalid : (s.entry tag).valid = true) : (s.entry tag).handler = some id := by
  cases field with
  | ioSource => exact absurd (hvalid.symm.trans h.1) Bool.noConfusion
  | handler => exact absurd (hvalid.symm.trans h.1) Bool.noConfusion
  | valid => exact h.2.2
  | monitoredEvents => exact h hvalid
  | capturedEvents => exact h hvalid
  | handlerPosted => exact h hvalid

/-- A call of `RegisterImpl()` is not disturbed by steps that make no entry valid, that leave the
handler of its entry alone, and that start operations of other registrations only. -/
theorem CallOk.congr {call : RegisterCall} (h : s.CallOk call)
    (hvalid : ∀ tag, (s'.entry tag).valid = true →
      (s.entry tag).valid = true ∧ (s'.entry tag).handler = (s.entry tag).handler)
    (hhandler : ∀ tag, (s.entry tag).valid = false → (∀ op ∈ s.executing, op.tag ≠ tag) →
      (s'.entry tag).handler = (s.entry tag).handler)
    (hflag : ∀ tag, (s'.entry tag).isSoftwareEventOneshot = (s.entry tag).isSoftwareEventOneshot)
    (hexecuting : ∀ op ∈ s'.executing, op ∈ s.executing ∨
      (s.entry op.tag).valid = true ∧ (s.entry op.tag).handler ≠ some call.id)
    (hholder : SameSlot (s.registrations call.id) (s'.registrations call.id))
    (hreturned : (s'.registrations call.id).returned = (s.registrations call.id).returned)
    (hlive : (∀ tag, (s.registrations call.id).slot = some tag → (s.entry tag).valid = false) →
      (s'.registrations call.id).deregistered = (s.registrations call.id).deregistered)
    (hnext : s.nextId ≤ s'.nextId) : s'.CallOk call := by
  -- what was not valid stays so, in particular the entry that was found
  have hinvalid (tag : HandlerTag) (htag : (s.entry tag).valid = false) :
      (s'.entry tag).valid = false := by
    rw [Bool.eq_false_iff]
    exact fun htrue => absurd ((hvalid tag htrue).1.symm.trans htag) Bool.noConfusion
  refine ⟨lt_of_lt_of_le h.named hnext, hreturned.trans h.returned,
    hholder.isOneshot.trans h.isOneshot, ?_⟩
  have hstage := h.stage
  unfold StageOk at hstage ⊢
  split at hstage
  · obtain ⟨hslot, hfresh, hposition⟩ := hstage
    refine ⟨hholder.slot.trans hslot, ?_, fun tag htag => hinvalid tag (hposition tag htag)⟩
    exact (hlive fun tag htag => absurd (htag.symm.trans hslot) (Option.some_ne_none tag)).trans
      hfresh
  · obtain ⟨hslot, hfresh, hfree⟩ := hstage
    refine ⟨hholder.slot.trans hslot, ?_, hinvalid _ hfree⟩
    exact (hlive fun tag htag => absurd (htag.symm.trans hslot) (Option.some_ne_none tag)).trans
      hfresh
  · rename_i tag field _
    obtain ⟨hslot, hfree, honeshot, hwritten⟩ := hstage
    refine ⟨hholder.slot.trans hslot, ?_, ?_, ?_⟩
    · intro op hop
      obtain hold | ⟨hnew, hother⟩ := hexecuting op hop
      · exact hfree op hold
      · -- an operation that has just begun belongs to the handler of another registration
        rintro rfl
        exact hother (hwritten.handler hnew)
    · rw [hholder.isOneshot, hflag]
      exact honeshot
    · -- as long as the entry is not valid, the registration cannot have been deregistered
      have hfresh (hunwritten : (s.entry tag).valid = false) :
          (s'.registrations call.id).deregistered = (s.registrations call.id).deregistered :=
        hlive fun u hu => Option.some.inj (hslot.symm.trans hu) ▸ hunwritten
      cases field with
      | ioSource | handler =>
        exact ⟨hinvalid tag hwritten.1, (hfresh hwritten.1).trans hwritten.2⟩
      | valid =>
        obtain ⟨hunwritten, hdereg, hid⟩ := hwritten
        exact ⟨hinvalid tag hunwritten, (hfresh hunwritten).trans hdereg,
          (hhandler tag hunwritten hfree).trans hid⟩
      | monitoredEvents | capturedEvents | handlerPosted =>
        intro htrue
        obtain ⟨hold, hsame⟩ := hvalid tag htrue
        exact hsame.trans (hwritten hold)

/-- A step that does not invoke or trigger anything keeps the accounts, if the registrations that
are owed an invocation keep their entries. -/
theorem Inv.accounts (h : s.Inv) (htable : s'.TableOk)
    (hinvocations : s'.invocations = s.invocations)
    (hpending : ∀ id, s'.pending id = s.pending id)
    (hhistory : ∀ id, (s'.registrations id).isOneshot = (s.registrations id).isOneshot ∧
      (s'.registrations id).triggered = (s.registrations id).triggered)
    (howed : ∀ id, s.Owed id → s'.IsRegistered id)
    (hnamed : ∀ id, s'.nextId ≤ id → s'.registrations id = {})
    (hsilent : ∀ id, (s'.registrations id).returned = false →
      (s.registrations id).returned = false)
    (hcall : ∀ call, s'.registering = some call → s'.CallOk call) : s'.Inv := by
  have hinvoked (id : RegistrationId) : s'.invoked id = s.invoked id := by
    rw [invoked, invoked, hinvocations]
  refine ⟨htable, ?_, ?_, ?_, ?_, hnamed, ?_, hcall⟩
  · rw [hinvocations]
    exact h.invocations
  · intro id
    rw [hinvoked, hpending, (hhistory id).2]
    exact h.count id
  · intro id
    rw [hinvoked, (hhistory id).1]
    exact h.oneshot id
  · intro id hid
    rw [Owed, expected, hinvoked, (hhistory id).1, (hhistory id).2] at hid
    exact howed id hid
  · intro id hid
    rw [(hhistory id).2]
    exact h.silent id (hsilent id hid)

/-- A step that does not touch the entries or the history and keeps the triggers that are
pending. -/
theorem Inv.frame (h : s.Inv) (htable : s'.TableOk)
    (hentry : ∀ tag, SameEntry (s.entry tag) (s'.entry tag))
    (hregistrations : s'.registrations = s.registrations)
    (hinvocations : s'.invocations = s.invocations) (hnext : s'.nextId = s.nextId)
    (hpending : ∀ id, s'.pending id = s.pending id)
    (hcall : ∀ call, s'.registering = some call → s'.CallOk call) : s'.Inv := by
  refine h.accounts htable hinvocations hpending ?_ ?_ ?_ ?_ hcall
  · intro id
    rw [hregistrations]
    exact ⟨rfl, rfl⟩
  · intro id howed
    exact (h.owed id howed).congr (fun tag _ => (hentry tag).toSameHandler)
      (by rw [hregistrations])
  · rw [hnext, hregistrations]
    exact h.named
  · rw [hregistrations]
    exact fun _ hid => hid

/-- A call of `RegisterImpl()` is not disturbed if nothing that concerns it changes. -/
theorem CallOk.frame {call : RegisterCall} (h : s.CallOk call)
    (hentry : ∀ tag, SameEntry (s.entry tag) (s'.entry tag))
    (hregistrations : s'.registrations = s.registrations) (hnext : s'.nextId = s.nextId)
    (hexecuting : s'.executing = s.executing) : s'.CallOk call := by
  refine h.congr ?_ ?_ ?_ ?_ ?_ ?_ ?_ hnext.ge
  · exact fun tag hvalid => ⟨(hentry tag).valid.symm.trans hvalid, (hentry tag).handler⟩
  · exact fun tag _ _ => (hentry tag).handler
  · exact fun tag => (hentry tag).isSoftwareEventOneshot
  · exact fun op hop => .inl (hexecuting ▸ hop)
  · rw [hregistrations]
    exact ⟨rfl, rfl⟩
  · rw [hregistrations]
  · exact fun _ => by rw [hregistrations]

end State

end Asrt.Reactor.Software
