import Asrt.Reactor.LifeCycle

/-!
# The entries of the operation table and their registrations

An entry of the reactor has at most one operation, because it is posted once and a slot is used
again only when it is neither valid nor posted. A deregistration releases the handler itself or
leaves it to the operation that is executing, which does so when the handler has returned.

The invariant says of every entry what its operations and flags can be (`SlotOk`), of every
registration that was made where it stands (`RegistrationOk`), and of a call of `RegisterImpl()`
that the slot it has found is free and how far it is written (`StageOk`). This module shows that the
operations and `Deregister()` keep it. `Inv.update` is the rule for a step that changes one entry.
-/

namespace Asrt.Reactor.LifeCycle

namespace State

/-- The handler of a registration is running. -/
def IsRunning (s : State) (id : RegistrationId) : Prop := ∃ op ∈ s.executing, op.2 = some id

instance (s : State) (id : RegistrationId) : Decidable (s.IsRunning id) :=
  inferInstanceAs (Decidable (∃ _ ∈ _, _))

/-- The operations of a tag that are queued or executing. -/
def operationCount (s : State) (tag : HandlerTag) : ℕ :=
  s.queued.count tag + s.executing.countP (·.1 = tag)

/-! ## The invariant -/

/-- A call of `RegisterImpl()` is writing the entry for a registration. -/
def Writes (s : State) (id : RegistrationId) (tag : HandlerTag) : Prop :=
  ∃ call ∈ s.registering, call.id = id ∧ ∃ field, call.stage = .write tag field

/-- What holds of a tag whose entry is `e`. -/
structure SlotOk (s : State) (tag : HandlerTag) (e : OperationEntry RegistrationId) : Prop where
  /-- There is at most one operation, and only while the entry is posted. -/
  posted : s.operationCount tag ≤ e.handlerPosted.toNat
  /-- The flag tells whether the handler is running. -/
  inProgress : e.executionInProgress = true ↔ 0 < s.executing.countP (·.1 = tag)
  /-- The handler that is running is still in the entry. -/
  running : ∀ handler, (tag, handler) ∈ s.executing → handler = e.handler
  /-- Work is left to an operation only by the deregistration of an executing entry. -/
  release : e.releaseHandlerMemory = true → e.executionInProgress = true ∧ e.valid = false
  close : e.closeIoSource = true → e.releaseHandlerMemory = true
  /-- The handler is that of a registration of the entry, and it is still needed. -/
  holder : ∀ id, e.handler = some id → s.Writes id tag ∨
    (s.registrations id).tag = some tag ∧ (e.valid = true ∨ e.releaseHandlerMemory = true)
  /-- A valid entry has a handler that is not deregistered. -/
  live : e.valid = true → ∃ id, e.handler = some id ∧ (s.registrations id).deregistered = false

/-- Where a registration stands whose entry is `e`: it is live, it waits for the operation that is
executing, or it is settled. -/
inductive RegistrationOk (id : RegistrationId) (g : Registration)
    (e : OperationEntry RegistrationId) : Prop
  | live (hderegistered : g.deregistered = false) (hreleased : g.released = 0)
    (hclosed : g.closed = []) (hvalid : e.valid = true) (hhandler : e.handler = some id)
    (hsource : e.ioSource = g.ioSource)
  | pending (hderegistered : g.deregistered = true) (hreleased : g.released = 0)
    (hclosed : g.closed = []) (hvalid : e.valid = false) (hhandler : e.handler = some id)
    (hsource : e.ioSource = g.ioSource) (hrelease : e.releaseHandlerMemory = true)
    (hclose : e.closeIoSource = g.closeRequested)
  | settled (hderegistered : g.deregistered = true) (hreleased : g.released = 1)
    (hclosed : g.closed = if g.closeRequested then [g.ioSource] else [])
    (hhandler : e.handler ≠ some id)

/-- How far an entry is written when the given member is next. -/
def WriteOk (call : RegisterCall) (e : OperationEntry RegistrationId) : EntryField → Prop
  | .ioSource => e.valid = false ∧ e.handler = none
  | .handler => e.valid = false ∧ e.handler = none ∧ e.ioSource = call.ioSource
  | .valid => e.valid = false ∧ e.handler = some call.id ∧ e.ioSource = call.ioSource
  | .monitoredEvents | .capturedEvents | .handlerPosted =>
    e.valid = true ∧ e.handler = some call.id ∧ e.ioSource = call.ioSource

/-- What holds of the slot that a call of `RegisterImpl()` has found, if its entry is `e`. -/
def StageOk (call : RegisterCall) (e : OperationEntry RegistrationId) : Prop :=
  e.handlerPosted = false ∧
    match call.stage with
    | .visit _ _ _ | .add _ => e.valid = false
    | .write _ field => WriteOk call e field

/-- The invariant. -/
structure Inv (s : State) : Prop where
  slot : ∀ tag, s.SlotOk tag (s.reactor.operations tag)
  registration : ∀ id tag, (s.registrations id).tag = some tag →
    RegistrationOk id (s.registrations id) (s.reactor.operations tag)
  /-- Nothing has become of a registration that was not made. -/
  unmade : ∀ id, (s.registrations id).tag = none → s.registrations id = {}
  /-- The names from `nextId` on are not in use. -/
  fresh : ∀ id, s.nextId ≤ id → (s.registrations id).tag = none
  stage : ∀ call ∈ s.registering, ∀ tag, call.stage.slot = some tag →
    StageOk call (s.reactor.operations tag)
  /-- The call that is being made has a name of its own. -/
  calling : ∀ call ∈ s.registering, call.id < s.nextId ∧ (s.registrations call.id).tag = none

variable {s s' : State} {tag : HandlerTag} {id : RegistrationId}
  {e : OperationEntry RegistrationId} {call : RegisterCall}

/-- The registration whose handler is running is the one that its entry holds. -/
theorem Inv.holds_of_running (h : s.Inv) (hid : (s.registrations id).tag = some tag)
    (hrunning : s.IsRunning id) : (s.reactor.operations tag).handler = some id := by
  obtain ⟨⟨u, handler⟩, hmem, rfl⟩ := hrunning
  have hhandler := (h.slot u).running _ hmem
  rcases (h.slot u).holder id hhandler.symm with ⟨call, hcall, rfl, -⟩ | ⟨htag, -⟩
  · rw [(h.calling call hcall).2] at hid
    cases hid
  · obtain rfl : u = tag := Option.some.inj (htag.symm.trans hid)
    exact hhandler.symm

/-- The handler of an entry in progress is running. -/
theorem SlotOk.isRunning (h : s.SlotOk tag e) (hprogress : e.executionInProgress = true)
    (hhandler : e.handler = some id) : s.IsRunning id := by
  obtain ⟨op, hop, htag⟩ := List.countP_pos_iff.mp (h.inProgress.mp hprogress)
  obtain ⟨u, handler⟩ := op
  obtain rfl : u = tag := by simpa using htag
  exact ⟨_, hop, (h.running handler hop).trans hhandler⟩

/-- Nothing is left to the operation of a valid entry. -/
theorem SlotOk.release_of_valid (h : s.SlotOk tag e) (hvalid : e.valid = true) :
    e.releaseHandlerMemory = false := by
  by_contra hrelease
  simp [(h.release (by simpa using hrelease)).2] at hvalid

/-- Without a handler to release there is no descriptor to close. -/
theorem SlotOk.close_of_release (h : s.SlotOk tag e) (hrelease : e.releaseHandlerMemory = false) :
    e.closeIoSource = false := by
  by_contra hclose
  simp [h.close (by simpa using hclose)] at hrelease

/-- With the same operations, what is said about a tag depends on who holds it. -/
theorem SlotOk.transfer (h : s.SlotOk tag e) (hqueued : s'.queued = s.queued)
    (hexecuting : s'.executing = s.executing)
    (hholder : ∀ id, e.handler = some id → s'.Writes id tag ∨ (s'.registrations id).tag = some tag ∧
      (e.valid = true ∨ e.releaseHandlerMemory = true))
    (hlive : e.valid = true →
      ∃ id, e.handler = some id ∧ (s'.registrations id).deregistered = false) :
    s'.SlotOk tag e := by
  refine ⟨?_, ?_, ?_, h.release, h.close, hholder, hlive⟩
  · simpa only [operationCount, hqueued, hexecuting] using h.posted
  · rw [hexecuting]
    exact h.inProgress
  · rw [hexecuting]
    exact h.running

/-- The masks and the ongoing flag of an entry play no part. -/
theorem SlotOk.masks (h : s.SlotOk tag e) (monitoredEvents capturedEvents : Events)
    (asyncOperationOngoing : Bool) :
    s.SlotOk tag { e with monitoredEvents, capturedEvents, asyncOperationOngoing } :=
  ⟨h.posted, h.inProgress, h.running, h.release, h.close, h.holder, h.live⟩

/-- A registration reads the members of the entry that name the holder and what is left to do for
it. -/
theorem RegistrationOk.congr {id : RegistrationId} {g : Registration}
    {e' : OperationEntry RegistrationId} (h : RegistrationOk id g e) (hvalid : e'.valid = e.valid)
    (hhandler : e'.handler = e.handler) (hsource : e'.ioSource = e.ioSource)
    (hrelease : e'.releaseHandlerMemory = e.releaseHandlerMemory)
    (hclose : e'.closeIoSource = e.closeIoSource) : RegistrationOk id g e' := by
  cases h with
  | live h₁ h₂ h₃ h₄ h₅ h₆ =>
    exact .live h₁ h₂ h₃ (hvalid.trans h₄) (hhandler.trans h₅) (hsource.trans h₆)
  | pending h₁ h₂ h₃ h₄ h₅ h₆ h₇ h₈ =>
    exact .pending h₁ h₂ h₃ (hvalid.trans h₄) (hhandler.trans h₅) (hsource.trans h₆)
      (hrelease.trans h₇) (hclose.trans h₈)
  | settled h₁ h₂ h₃ h₄ => exact .settled h₁ h₂ h₃ (hhandler ▸ h₄)

/-! ## Steps that change one entry -/

/-- A slot that a call of `RegisterImpl()` has found is not posted. -/
theorem Inv.slot_ne_of_posted (h : s.Inv) (hcall : call ∈ s.registering)
    (hposted : (s.reactor.operations tag).handlerPosted = true) : call.stage.slot ≠ some tag := by
  intro hslot
  have hnot := (h.stage call hcall tag hslot).1
  simp [hposted] at hnot

/-- A slot that a call of `RegisterImpl()` has found has no other registration. -/
theorem Inv.slot_ne_of_holds (h : s.Inv) (hcall : call ∈ s.registering)
    (hid : (s.registrations id).tag = some tag)
    (hvalid : (s.reactor.operations tag).valid = true)
    (hhandler : (s.reactor.operations tag).handler = some id) :
    call.stage.slot ≠ some tag := by
  intro hslot
  have hne : call.id ≠ id := by
    rintro rfl
    rw [(h.calling call hcall).2] at hid
    cases hid
  have hstage := (h.stage call hcall tag hslot).2
  -- the entry is not yet valid, or it holds the handler of the call
  cases hs : call.stage with
  | visit its position last => simp [hs, hvalid] at hstage
  | add u => simp [hs, hvalid] at hstage
  | write u field => cases field <;> simp [hs, WriteOk, hvalid, hhandler, hne.symm] at hstage

/-- A step that changes one entry, and the registrations of that entry only, keeps the invariant if
what is said about the entry and its registrations holds again. -/
theorem Inv.update (h : s.Inv) (tag : HandlerTag)
    (hops : s'.reactor.operations = Function.update s.reactor.operations tag e)
    (hregistering : s'.registering = s.registering) (hnext : s'.nextId = s.nextId)
    (hqueued : ∀ u, u ≠ tag → s'.queued.count u = s.queued.count u)
    (hexecuting : ∀ u, u ≠ tag → ∀ handler, (u, handler) ∈ s'.executing →
      (u, handler) ∈ s.executing)
    (hcount : ∀ u, u ≠ tag →
      s'.executing.countP (·.1 = u) = s.executing.countP (·.1 = u))
    (htags : ∀ id, (s'.registrations id).tag = (s.registrations id).tag)
    (hothers : ∀ id, (s.registrations id).tag ≠ some tag → s'.registrations id = s.registrations id)
    (hslot : s'.SlotOk tag e)
    (hids : ∀ id, (s.registrations id).tag = some tag → RegistrationOk id (s'.registrations id) e)
    (hstage : ∀ call ∈ s.registering, call.stage.slot = some tag → StageOk call e) : s'.Inv where
  slot u := by
    rw [hops]
    by_cases hu : u = tag
    · subst hu
      rwa [Function.update_self]
    · rw [Function.update_of_ne hu]
      have hold := h.slot u
      -- the holder of another entry is another registration
      have hsame (id) (hid : (s.reactor.operations u).handler = some id) :
          s'.registrations id = s.registrations id := by
        apply hothers
        rcases hold.holder id hid with ⟨call, hcall, rfl, -⟩ | ⟨htag, -⟩
        · simp [(h.calling call hcall).2]
        · simp [htag, hu]
      refine ⟨?_, ?_, fun handler hmem => hold.running handler (hexecuting u hu handler hmem),
        hold.release, hold.close, fun id hid => ?_, fun hvalid => ?_⟩
      · simpa only [operationCount, hqueued u hu, hcount u hu] using hold.posted
      · rw [hcount u hu]
        exact hold.inProgress
      · rw [hsame id hid, Writes, hregistering]
        exact hold.holder id hid
      · obtain ⟨id, hid, hderegistered⟩ := hold.live hvalid
        exact ⟨id, hid, by rwa [hsame id hid]⟩
  registration id u hid := by
    rw [htags] at hid
    rw [hops]
    by_cases hu : u = tag
    · subst hu
      rw [Function.update_self]
      exact hids id hid
    · rw [Function.update_of_ne hu, hothers id (by simp [hid, hu])]
      exact h.registration id u hid
  unmade id hid := by
    rw [htags] at hid
    rw [hothers id (by simp [hid])]
    exact h.unmade id hid
  fresh id hle := by
    rw [htags]
    exact h.fresh id (hnext ▸ hle)
  stage call hcall u hu := by
    rw [hregistering] at hcall
    rw [hops]
    by_cases hut : u = tag
    · subst hut
      rw [Function.update_self]
      exact hstage call hcall hu
    · rw [Function.update_of_ne hut]
      exact h.stage call hcall u hu
  calling call hcall := by
    rw [hregistering] at hcall
    rw [htags, hnext]
    exact h.calling call hcall

/-- The masks and the ongoing flag of the entries play no part, nor does the state that is not
mentioned. -/
theorem Inv.frame (h : s.Inv)
    (hops : ∀ tag, ∃ monitoredEvents capturedEvents asyncOperationOngoing,
      s'.reactor.operations tag = { s.reactor.operations tag with
        monitoredEvents, capturedEvents, asyncOperationOngoing })
    (hregistering : s'.registering = s.registering) (hnext : s'.nextId = s.nextId)
    (hqueued : s'.queued = s.queued) (hexecuting : s'.executing = s.executing)
    (hregistrations : s'.registrations = s.registrations) : s'.Inv where
  slot tag := by
    -- no field of the slot invariant reads the masks
    obtain ⟨m, c, o, hentry⟩ := hops tag
    have hold := (h.slot tag).masks m c o
    rw [hentry]
    refine hold.transfer hqueued hexecuting ?_ ?_
    · intro id hid
      rw [hregistrations, Writes, hregistering]
      exact hold.holder id hid
    · rw [hregistrations]
      exact hold.live
  registration id tag hid := by
    obtain ⟨m, c, o, hentry⟩ := hops tag
    rw [hregistrations] at hid ⊢
    rw [hentry]
    exact (h.registration id tag hid).congr rfl rfl rfl rfl rfl
  unmade := hregistrations ▸ h.unmade
  fresh := hregistrations ▸ hnext ▸ h.fresh
  stage call hcall tag hslot := by
    obtain ⟨m, c, o, hentry⟩ := hops tag
    have hold := h.stage call (hregistering ▸ hcall) tag hslot
    rw [hentry]
    simp only [StageOk] at hold ⊢
    cases hs : call.stage with
    | visit its position last =>
      simp only [hs] at hold
      exact hold
    | add u =>
      simp only [hs] at hold
      exact hold
    | write u field =>
      simp only [hs] at hold
      cases field <;> exact hold
  calling := hregistering ▸ hregistrations ▸ hnext ▸ h.calling

/-- An operation is started or an event consumed: the entry keeps its slot. -/
theorem Inv.setEntry_frame (h : s.Inv) (tag : HandlerTag) {m c : Events} {o : Bool}
    (hops : s'.reactor.operations = Function.update s.reactor.operations tag
      { s.reactor.operations tag with
        monitoredEvents := m, capturedEvents := c, asyncOperationOngoing := o })
    (hregistering : s'.registering = s.registering) (hnext : s'.nextId = s.nextId)
    (hqueued : s'.queued = s.queued) (hexecuting : s'.executing = s.executing)
    (hregistrations : s'.registrations = s.registrations) : s'.Inv := by
  refine h.frame (fun u => ?_) hregistering hnext hqueued hexecuting hregistrations
  rw [hops]
  by_cases hu : u = tag
  · subst hu
    exact ⟨m, c, o, by rw [Function.update_self]⟩
  · exact ⟨_, _, _, by rw [Function.update_of_ne hu]⟩

/-! ## The end of an operation -/

/-- The holder of a posted entry is a registration that was made for it. -/
theorem Inv.tag_of_posted (h : s.Inv)
    (hposted : (s.reactor.operations tag).handlerPosted = true)
    (hhandler : (s.reactor.operations tag).handler = some id) :
    (s.registrations id).tag = some tag ∧ ((s.reactor.operations tag).valid = true ∨
      (s.reactor.operations tag).releaseHandlerMemory = true) := by
  rcases (h.slot tag).holder id hhandler with ⟨call, hcall, -, field, hfield⟩ | hholder
  · refine absurd ?_ (h.slot_ne_of_posted hcall hposted)
    rw [hfield]
    rfl
  · exact hholder

/-- The entry after the end of its operation. -/
def endedEntry (e : OperationEntry RegistrationId) : OperationEntry RegistrationId :=
  { e with
    executionInProgress := false
    handler := if e.releaseHandlerMemory then none else e.handler
    releaseHandlerMemory := false
    closeIoSource := false
    handlerPosted := false }

/-- The end of an operation settles a deregistration that was left to it. -/
theorem Inv.ended (h : s.Inv) (hposted : (s.reactor.operations tag).handlerPosted = true)
    (hops : s'.reactor.operations = Function.update s.reactor.operations tag
      (endedEntry (s.reactor.operations tag)))
    (hregistering : s'.registering = s.registering) (hnext : s'.nextId = s.nextId)
    (hqueued : ∀ u, u ≠ tag → s'.queued.count u = s.queued.count u)
    (hexecuting : ∀ u, u ≠ tag → ∀ handler, (u, handler) ∈ s'.executing →
      (u, handler) ∈ s.executing)
    (hcount : ∀ u, u ≠ tag →
      s'.executing.countP (·.1 = u) = s.executing.countP (·.1 = u))
    (hregistrations : s'.registrations =
      (s.settle tag (s.reactor.operations tag).releaseHandlerMemory
        (s.reactor.operations tag).closeIoSource).registrations)
    (hnone : s'.operationCount tag = 0) : s'.Inv := by
  have hold := h.slot tag
  have hq : s'.queued.count tag = 0 := by unfold operationCount at hnone; omega
  have hx : s'.executing.countP (·.1 = tag) = 0 := by unfold operationCount at hnone; omega
  refine h.update tag hops hregistering hnext hqueued hexecuting hcount ?_ ?_ ?_ ?_ ?_
  · intro id
    rw [hregistrations, (settle_frame ..).1]
  · -- only the holder is settled, and it is a registration of the entry
    intro id hid
    rw [hregistrations]
    cases hhandler : (s.reactor.operations tag).handler with
    | none => simp [settle, hhandler]
    | some holder =>
      rw [settle_registrations hhandler, Function.update_of_ne]
      rintro rfl
      exact hid (h.tag_of_posted hposted hhandler).1
  · cases hrelease : (s.reactor.operations tag).releaseHandlerMemory with
    | false =>
      rw [hrelease, hold.close_of_release hrelease, settle_false] at hregistrations
      refine ⟨by omega, by simp [endedEntry, hx], ?_, by simp [endedEntry], by simp [endedEntry],
        ?_, ?_⟩
      · intro handler hmem
        simpa using List.countP_eq_zero.mp hx _ hmem
      · intro id hid
        have hhandler : (s.reactor.operations tag).handler = some id := by
          simpa [endedEntry, hrelease] using hid
        obtain ⟨htag, hneeded⟩ := h.tag_of_posted hposted hhandler
        refine .inr ⟨hregistrations ▸ htag, .inl ?_⟩
        simpa [endedEntry, hrelease] using hneeded
      · intro hvalid
        obtain ⟨id, hhandler, hderegistered⟩ := hold.live hvalid
        exact ⟨id, by simpa [endedEntry, hrelease] using hhandler, hregistrations ▸ hderegistered⟩
    | true =>
      -- a deregistered entry is left without a handler
      have hvalid := (hold.release hrelease).2
      refine ⟨by omega, by simp [endedEntry, hx], ?_, by simp [endedEntry], by simp [endedEntry],
        by simp [endedEntry, hrelease], by simp [endedEntry, hvalid]⟩
      intro handler hmem
      simpa using List.countP_eq_zero.mp hx _ hmem
  · intro id hid
    rw [hregistrations]
    cases h.registration id tag hid with
    | live hderegistered hreleased hclosed hvalid hhandler hsource =>
      have hrelease := hold.release_of_valid hvalid
      rw [hrelease, hold.close_of_release hrelease, settle_false]
      exact .live hderegistered hreleased hclosed hvalid (by simp [endedEntry, hrelease, hhandler])
        hsource
    | pending hderegistered hreleased hclosed hvalid hhandler hsource hrelease hclose =>
      rw [settle_registrations hhandler, Function.update_self]
      refine .settled hderegistered ?_ ?_ (by simp [endedEntry, hrelease])
      · simp [hreleased, hrelease]
      · simp [hclosed, hclose, hsource]
    | settled hderegistered hreleased hclosed hhandler =>
      have hother : (s.settle tag (s.reactor.operations tag).releaseHandlerMemory
          (s.reactor.operations tag).closeIoSource).registrations id = s.registrations id := by
        cases hholder : (s.reactor.operations tag).handler with
        | none => simp [settle, hholder]
        | some holder =>
          rw [settle_registrations hholder, Function.update_of_ne]
          rintro rfl
          exact hhandler hholder
      rw [hother]
      refine .settled hderegistered hreleased hclosed ?_
      simp only [endedEntry]
      split
      · exact Option.some_ne_none _ ∘ Eq.symm
      · exact hhandler
  · intro call hcall hslot
    exact absurd hslot (h.slot_ne_of_posted hcall hposted)

/-! ## The steps of the reactor thread and of the executor threads -/

/-- An event that is posted adds the operation of an entry that had none. -/
theorem Inv.post (h : s.Inv) {event : EpollEvent} (hreports : s.reactor.Reports event)
    (hstage : ∀ call ∈ s.registering, call.stage.slot ≠ some event.tag)
    (hops : s'.reactor.operations = Function.update s.reactor.operations event.tag
      { s.reactor.operations event.tag with
        capturedEvents := Events.ofMask event.events, handlerPosted := true })
    (hregistering : s'.registering = s.registering) (hnext : s'.nextId = s.nextId)
    (hqueued : s'.queued = s.queued ++ [event.tag]) (hexecuting : s'.executing = s.executing)
    (hregistrations : s'.registrations = s.registrations) : s'.Inv := by
  obtain ⟨hvalid, hposted, -⟩ := hreports
  have hold := h.slot event.tag
  -- the entry is not posted, so it has no operation yet
  have hnone : s.operationCount event.tag = 0 := by
    have := hold.posted
    rwa [hposted, Bool.toNat_false, Nat.le_zero] at this
  refine h.update event.tag hops hregistering hnext ?_ ?_ ?_ ?_ ?_ ?_ ?_ ?_
  · intro u hu
    simp [hqueued, List.count_append, hu.symm]
  · intro u hu handler hmem
    rwa [hexecuting] at hmem
  · intro u hu
    rw [hexecuting]
  · intro id
    rw [hregistrations]
  · intro id hid
    rw [hregistrations]
  · refine ⟨?_, ?_, ?_, hold.release, hold.close, ?_, ?_⟩
    · simp only [operationCount, hqueued, hexecuting, List.count_append] at hnone ⊢
      simp
      omega
    · rw [hexecuting]
      exact hold.inProgress
    · rw [hexecuting]
      exact hold.running
    · intro id hid
      rw [hregistrations, Writes, hregistering]
      exact hold.holder id hid
    · rw [hregistrations]
      exact hold.live
  · intro id hid
    rw [hregistrations]
    exact (h.registration id event.tag hid).congr rfl rfl rfl rfl rfl
  · intro call hcall hslot
    -- the slot that a call has found is not reported
    exact absurd hslot (hstage call hcall)

/-- The entry of a queued operation is posted, and the operation is its only one. -/
theorem SlotOk.of_queued (h : s.SlotOk tag e) (hmem : tag ∈ s.queued) :
    e.handlerPosted = true ∧ s.queued.count tag = 1 ∧ s.executing.countP (·.1 = tag) = 0 := by
  have hle := h.posted
  have hpos := List.count_pos_iff.mpr hmem
  simp only [operationCount] at hle
  cases hposted : e.handlerPosted with
  | false =>
    rw [hposted, Bool.toNat_false] at hle
    omega
  | true =>
    rw [hposted, Bool.toNat_true] at hle
    exact ⟨rfl, by omega, by omega⟩

/-- The entry of an executing operation is posted, and the operation is its only one. -/
theorem SlotOk.of_executing (h : s.SlotOk tag e) {handler : Option RegistrationId}
    (hmem : (tag, handler) ∈ s.executing) :
    e.handlerPosted = true ∧ s.queued.count tag = 0 ∧ s.executing.countP (·.1 = tag) = 1 := by
  have hle := h.posted
  have hpos : 0 < s.executing.countP (·.1 = tag) :=
    List.countP_pos_iff.mpr ⟨_, hmem, by simp⟩
  simp only [operationCount] at hle
  cases hposted : e.handlerPosted with
  | false =>
    rw [hposted, Bool.toNat_false] at hle
    omega
  | true =>
    rw [hposted, Bool.toNat_true] at hle
    exact ⟨rfl, by omega, by omega⟩

/-- An operation with events to report calls the handler of its entry. -/
theorem Inv.beginReport (h : s.Inv) (hmem : tag ∈ s.queued)
    (hvalid : (s.reactor.operations tag).valid = true) {m : Events}
    (hops : s'.reactor.operations = Function.update s.reactor.operations tag
      { s.reactor.operations tag with
        monitoredEvents := m, asyncOperationOngoing := false, executionInProgress := true })
    (hregistering : s'.registering = s.registering) (hnext : s'.nextId = s.nextId)
    (hqueued : s'.queued = s.queued.erase tag)
    (hexecuting : s'.executing =
      (tag, (s.reactor.operations tag).handler) :: s.executing)
    (hregistrations : s'.registrations = s.registrations) : s'.Inv := by
  have hold := h.slot tag
  obtain ⟨hposted, hone, hzero⟩ := hold.of_queued hmem
  refine h.update tag hops hregistering hnext ?_ ?_ ?_ ?_ ?_ ?_ ?_ ?_
  · intro u hu
    rw [hqueued, List.count_erase_of_ne hu]
  · intro u hu handler hrunning
    rw [hexecuting] at hrunning
    rcases List.mem_cons.mp hrunning with heq | hrest
    · exact absurd (Prod.mk.inj heq).1 hu
    · exact hrest
  · intro u hu
    rw [hexecuting, List.countP_cons_of_neg (by simpa using hu.symm)]
  · intro id
    rw [hregistrations]
  · intro id hid
    rw [hregistrations]
  · refine ⟨?_, ?_, ?_, ?_, hold.close, ?_, ?_⟩
    · rw [operationCount, hqueued, hexecuting, List.count_erase_self,
        List.countP_cons_of_pos (by simp), hone, hzero, hposted, Bool.toNat_true]
    · rw [hexecuting, List.countP_cons_of_pos (by simp)]
      exact ⟨fun _ => Nat.succ_pos _, fun _ => rfl⟩
    · -- no other handler of the tag is running
      intro handler hrunning
      rw [hexecuting] at hrunning
      rcases List.mem_cons.mp hrunning with heq | hrest
      · exact (Prod.mk.inj heq).2
      · exact hold.running handler hrest
    · intro hrelease
      simp [hold.release_of_valid hvalid] at hrelease
    · intro id hid
      rw [hregistrations, Writes, hregistering]
      exact hold.holder id hid
    · rw [hregistrations]
      exact hold.live
  · intro id hid
    rw [hregistrations]
    cases h.registration id tag hid with
    | live h₁ h₂ h₃ h₄ h₅ h₆ => exact .live h₁ h₂ h₃ h₄ h₅ h₆
    | pending h₁ h₂ h₃ h₄ => simp [hvalid] at h₄
    | settled h₁ h₂ h₃ h₄ => exact .settled h₁ h₂ h₃ h₄
  · intro call hcall hslot
    exact absurd hslot (h.slot_ne_of_posted hcall hposted)

/-- The first part of an operation keeps the invariant. -/
theorem Inv.beginOperation (h : s.Inv) (hmem : tag ∈ s.queued) : (s.beginOperation tag).Inv := by
  have hold := h.slot tag
  obtain ⟨hposted, hone, hzero⟩ := hold.of_queued hmem
  unfold State.beginOperation
  rcases EpollReactor.beginOperation_cases s.reactor tag with
    ⟨hvalid, heq⟩ | ⟨hvalid, heq⟩ | ⟨hvalid, heq⟩
  · -- the entry stays posted
    simp only [heq, hvalid, Bool.false_eq_true, if_false]
    refine h.update tag (e := s.reactor.operations tag) (by simp) rfl rfl ?_ (fun _ _ _ h => h)
      (fun _ _ => rfl) (fun _ => rfl) (fun _ _ => rfl) ?_ (fun id hid => h.registration id tag hid)
      (fun call hcall hslot => absurd hslot (h.slot_ne_of_posted hcall hposted))
    · intro u hu
      exact List.count_erase_of_ne hu
    · refine ⟨le_trans ?_ hold.posted, hold.inProgress, hold.running, hold.release, hold.close,
        hold.holder, hold.live⟩
      exact Nat.add_le_add_right (List.erase_sublist.count_le tag) _
  · have hidle : (s.reactor.operations tag).executionInProgress = false := by
      by_contra hprogress
      have := hold.inProgress.mp (by simpa using hprogress)
      omega
    simp only [heq, hvalid, if_true]
    rw [cleanup_eq s (s.queued.erase tag) s.executing]
    refine h.ended hposted ?_ rfl rfl ?_ (fun _ _ _ h => h) (fun _ _ => rfl) rfl ?_
    · simp [EpollReactor.cleanupOperation, endedEntry, hidle]
    · intro u hu
      exact List.count_erase_of_ne hu
    · rw [operationCount, List.count_erase_self, hone, hzero]
  · simp only [heq]
    exact h.beginReport hmem hvalid rfl rfl rfl rfl rfl rfl

/-- The second part of an operation keeps the invariant. -/
theorem Inv.finishOperation (h : s.Inv) {handler : Option RegistrationId}
    (hmem : (tag, handler) ∈ s.executing) : (s.finishOperation tag handler).Inv := by
  have hold := h.slot tag
  obtain ⟨hposted, hzero, hone⟩ := hold.of_executing hmem
  unfold State.finishOperation
  rw [cleanup_eq s s.queued (s.executing.erase (tag, handler))]
  refine h.ended hposted ?_ rfl rfl (fun _ _ => rfl) ?_ ?_ rfl ?_
  · rw [EpollReactor.finishOperation_eq]
    rfl
  · intro u hu running hrunning
    exact List.mem_of_mem_erase hrunning
  · intro u hu
    rw [List.countP_erase, if_neg (by simp [hu.symm]), Nat.sub_zero]
  · rw [operationCount, List.countP_erase, if_pos (by simp [hmem]), hzero, hone]

/-! ## Deregistration -/

/-- The entry of a live registration is made invalid: it loses its handler at once, or keeps it for
the operation that is executing. -/
theorem Inv.invalidate (h : s.Inv) (hid : (s.registrations id).tag = some tag)
    (hvalid : (s.reactor.operations tag).valid = true)
    (hhandler : (s.reactor.operations tag).handler = some id)
    (handler : Option RegistrationId) (release close : Bool) (g : Registration)
    (hexec : (s.reactor.operations tag).executionInProgress = true →
      handler = some id ∧ release = true)
    (hidle : (s.reactor.operations tag).executionInProgress = false →
      handler = none ∧ release = false)
    (hclose : close = true → release = true)
    (hops : s'.reactor.operations = Function.update s.reactor.operations tag
      { s.reactor.operations tag with
        handler, valid := false, releaseHandlerMemory := release, closeIoSource := close })
    (hregistering : s'.registering = s.registering) (hnext : s'.nextId = s.nextId)
    (hqueued : s'.queued = s.queued) (hexecuting : s'.executing = s.executing)
    (hregistrations : s'.registrations = Function.update s.registrations id g)
    (hgtag : g.tag = some tag)
    (hg : RegistrationOk id g { s.reactor.operations tag with
      handler, valid := false, releaseHandlerMemory := release, closeIoSource := close }) :
    s'.Inv := by
  have hold := h.slot tag
  refine h.update tag hops hregistering hnext (fun _ _ => by rw [hqueued])
    (fun _ _ _ hmem => hexecuting ▸ hmem) (fun _ _ => by rw [hexecuting]) ?_ ?_ ?_ ?_ ?_
  · intro id'
    rw [hregistrations]
    by_cases hne : id' = id
    · subst hne
      rw [Function.update_self, hgtag, hid]
    · rw [Function.update_of_ne hne]
  · intro id' hid'
    rw [hregistrations, Function.update_of_ne]
    rintro rfl
    exact hid' hid
  · refine ⟨?_, ?_, ?_, ?_, hclose, ?_, Bool.noConfusion⟩
    · simpa only [operationCount, hqueued, hexecuting] using hold.posted
    · rw [hexecuting]
      exact hold.inProgress
    · intro running hmem
      rw [hexecuting] at hmem
      have hprogress := hold.inProgress.mpr (List.countP_pos_iff.mpr ⟨_, hmem, by simp⟩)
      rw [hold.running running hmem, hhandler, (hexec hprogress).1]
    · intro hrelease
      refine ⟨?_, rfl⟩
      by_contra hprogress
      simp [(hidle (by simpa using hprogress)).2] at hrelease
    · intro id' hid'
      cases hprogress : (s.reactor.operations tag).executionInProgress with
      | false => simp [(hidle hprogress).1] at hid'
      | true =>
        obtain ⟨hkeeps, hrelease⟩ := hexec hprogress
        obtain rfl : id = id' := Option.some.inj (hkeeps.symm.trans hid')
        refine .inr ⟨?_, .inr hrelease⟩
        rw [hregistrations, Function.update_self, hgtag]
  · -- the other registrations of the entry were settled before
    intro id' hid'
    rw [hregistrations]
    by_cases hne : id' = id
    · subst hne
      rwa [Function.update_self]
    · rw [Function.update_of_ne hne]
      cases h.registration id' tag hid' with
      | live _ _ _ _ h₅ => simp [hhandler, Ne.symm hne] at h₅
      | pending _ _ _ _ h₅ => simp [hhandler, Ne.symm hne] at h₅
      | settled h₁ h₂ h₃ h₄ =>
        refine .settled h₁ h₂ h₃ ?_
        cases hprogress : (s.reactor.operations tag).executionInProgress with
        | false => simp [(hidle hprogress).1]
        | true => simp [(hexec hprogress).1, Ne.symm hne]
  · intro call hcall hslot
    exact absurd hslot (h.slot_ne_of_holds hcall hid hvalid hhandler)

/-- A deregistration keeps the invariant: the registration is settled, or left to the operation that
is executing. -/
theorem Inv.deregister (h : s.Inv) (hid : (s.registrations id).tag = some tag)
    (hderegistered : (s.registrations id).deregistered = false) (closeOnDeregister : Bool) :
    (s.deregister id tag closeOnDeregister).Inv := by
  have hold := h.slot tag
  obtain ⟨hreleased, hclosed, hvalid, hhandler, hsource⟩ :
      (s.registrations id).released = 0 ∧ (s.registrations id).closed = [] ∧
      (s.reactor.operations tag).valid = true ∧ (s.reactor.operations tag).handler = some id ∧
      (s.reactor.operations tag).ioSource = (s.registrations id).ioSource := by
    cases h.registration id tag hid with
    | live _ h₂ h₃ h₄ h₅ h₆ => exact ⟨h₂, h₃, h₄, h₅, h₆⟩
    | pending h₁ => simp [hderegistered] at h₁
    | settled h₁ => simp [hderegistered] at h₁
  have hrelease := hold.release_of_valid hvalid
  have hclose := hold.close_of_release hrelease
  unfold State.deregister
  split
  · rename_i reactor ec hder
    obtain rfl := EpollReactor.derigsterImpl_error hder
    exact h
  rename_i reactor hder
  obtain ⟨-, ⟨hidle, kernel, rfl⟩ | ⟨hexec, kernel, rfl⟩⟩ := EpollReactor.derigsterImpl_cases hder
  · -- the handler is released here
    simp only [setRegistration, hidle, Bool.false_eq_true, if_false, settle, hhandler,
      Function.update_self, Function.update_idem]
    refine h.invalidate hid hvalid hhandler none false false _ (by simp [hidle])
      (fun _ => ⟨rfl, rfl⟩) (fun h => h) ?_ rfl rfl rfl rfl rfl hid ?_
    · simp [hidle, hrelease, hclose]
    · refine .settled rfl (by simp [hreleased]) ?_ (by simp)
      simp [hclosed, hsource]
  · -- the handler is left to the operation
    simp only [setRegistration, hexec, if_true]
    refine h.invalidate hid hvalid hhandler (some id) true closeOnDeregister _ (fun _ => ⟨rfl, rfl⟩)
      (by simp [hexec]) (fun _ => rfl) ?_ rfl rfl rfl rfl rfl hid ?_
    · simp [hexec, hhandler, hclose]
    · exact .pending rfl hreleased hclosed rfl rfl hsource rfl rfl

end State

end Asrt.Reactor.LifeCycle
