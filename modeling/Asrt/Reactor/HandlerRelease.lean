import Asrt.Reactor.SlotInvariant

/-!
# When handlers are started, released and their descriptors closed

`RegisterImpl()` makes an entry valid before it clears `handler_posted_`, and holds no mutex of the
entry in between. An event that is posted in between is forgotten, and the next event is posted on
top of it. `life_cycle` is about the runs in which this does not happen: there every tag has at most
one operation, and every handler is released once, when it is not running and can not be started
again.
-/

namespace Asrt.Reactor.LifeCycle

namespace State

/-- What the life cycle of registrations promises. -/
structure LifeCycleOk (s : State) : Prop where
  /-- A tag has at most one operation. -/
  single : ∀ tag, s.operationCount tag ≤ 1
  /-- The handler that an operation starts is that of a registration that is not deregistered. -/
  started : ∀ tag handler events, (s.reactor.beginOperation tag).2 = some (handler, events) →
    ∃ id, handler = some id ∧ (s.registrations id).deregistered = false
  /-- Nothing is released or closed for a registration that is not deregistered. -/
  kept : ∀ id, (s.registrations id).deregistered = false →
    (s.registrations id).released = 0 ∧ (s.registrations id).closed = []
  /-- Once deregistered, the handler is released and the descriptor closed, if that was requested,
  exactly once each, but not before the handler has returned. -/
  settled : ∀ id, (s.registrations id).deregistered = true →
    if s.IsRunning id then (s.registrations id).released = 0 ∧ (s.registrations id).closed = []
    else (s.registrations id).released = 1 ∧ (s.registrations id).closed =
      if (s.registrations id).closeRequested then [(s.registrations id).ioSource] else []

/-- The condition on a step: no event is posted for the entry that `RegisterImpl()` is writing. -/
def Undisturbed (s : State) : Action → Prop
  | .handleEvent => ∀ report ∈ s.batch.head?, ∀ call ∈ s.registering,
      call.stage.slot = some report.event.tag → ¬ s.reactor.Reports report.event
  | _ => True

instance (s : State) : (a : Action) → Decidable (s.Undisturbed a)
  | .handleEvent => inferInstanceAs (Decidable (∀ _ ∈ _, ∀ _ ∈ _, _ → _))
  | .openFd _ | .closeFd _ | .register _ _ | .registerStep _ | .deregister _ _ | .start _ _ _
  | .ignore _ _ | .consume _ _ | .wait _ | .abandon | .begin _ | .finish _ _ =>
    inferInstanceAs (Decidable True)

variable {s s' : State} {tag : HandlerTag} {id : RegistrationId}
  {e : OperationEntry RegistrationId} {call : RegisterCall}

/-- The invariant gives what is promised. -/
theorem Inv.toLifeCycleOk (h : s.Inv) : s.LifeCycleOk where
  single tag := (h.slot tag).posted.trans (Bool.toNat_le _)
  started tag handler events hbegin := by
    -- only the handler of a valid entry is called
    rcases EpollReactor.beginOperation_cases s.reactor tag with
      ⟨-, heq⟩ | ⟨-, heq⟩ | ⟨hvalid, heq⟩
    · rw [heq] at hbegin
      cases hbegin
    · rw [heq] at hbegin
      cases hbegin
    · rw [heq] at hbegin
      obtain ⟨rfl, -⟩ := Prod.mk.inj (Option.some.inj hbegin)
      obtain ⟨id, hhandler, hderegistered⟩ := (h.slot tag).live hvalid
      exact ⟨id, hhandler, hderegistered⟩
  kept id hid := by
    cases htag : (s.registrations id).tag with
    | none => simp [h.unmade id htag]
    | some tag =>
      cases h.registration id tag htag with
      | live _ hreleased hclosed => exact ⟨hreleased, hclosed⟩
      | pending hderegistered => simp [hid] at hderegistered
      | settled hderegistered => simp [hid] at hderegistered
  settled id hid := by
    cases htag : (s.registrations id).tag with
    | none => simp [h.unmade id htag] at hid
    | some tag =>
      cases h.registration id tag htag with
      | live hderegistered => simp [hid] at hderegistered
      | pending _ hreleased hclosed _ hhandler _ hrelease =>
        -- the release is left to the running operation
        have hrunning := (h.slot tag).isRunning ((h.slot tag).release hrelease).1 hhandler
        rw [if_pos hrunning]
        exact ⟨hreleased, hclosed⟩
      | settled _ hreleased hclosed hhandler =>
        rw [if_neg fun hrunning => hhandler (h.holds_of_running htag hrunning)]
        exact ⟨hreleased, hclosed⟩

/-! ## Registration -/

/-- A free slot has no operation and no handler. -/
theorem Inv.handler_of_free (h : s.Inv) (hvalid : (s.reactor.operations tag).valid = false)
    (hposted : (s.reactor.operations tag).handlerPosted = false)
    (hwrites : ∀ id, ¬ s.Writes id tag) : (s.reactor.operations tag).handler = none := by
  have hold := h.slot tag
  have hnone : s.operationCount tag = 0 := by
    have := hold.posted
    rwa [hposted, Bool.toNat_false, Nat.le_zero] at this
  cases hhandler : (s.reactor.operations tag).handler with
  | none => rfl
  | some id =>
    rcases hold.holder id hhandler with hw | ⟨-, hv | hrelease⟩
    · exact absurd hw (hwrites id)
    · simp [hvalid] at hv
    · -- the handler would be left to an operation
      have := hold.inProgress.mp (hold.release hrelease).1
      unfold operationCount at hnone
      omega

/-- A call of `RegisterImpl()` goes on without touching an entry. -/
theorem Inv.advance (h : s.Inv) {registering : Option RegisterCall}
    (hops : s'.reactor.operations = s.reactor.operations)
    (hregistering : s'.registering = registering) (hnext : s.nextId ≤ s'.nextId)
    (hqueued : s'.queued = s.queued) (hexecuting : s'.executing = s.executing)
    (hregistrations : s'.registrations = s.registrations)
    (hwrites : ∀ id tag, ¬ s.Writes id tag)
    (hstage : ∀ call ∈ registering, ∀ tag, call.stage.slot = some tag →
      StageOk call (s.reactor.operations tag))
    (hcalling : ∀ call ∈ registering,
      call.id < s'.nextId ∧ (s.registrations call.id).tag = none) : s'.Inv where
  slot tag := by
    have hold := h.slot tag
    rw [hops]
    refine hold.transfer hqueued hexecuting ?_ ?_
    · intro id hid
      rw [hregistrations]
      -- the holder of the entry has been made, as no call writes an entry
      exact .inr ((hold.holder id hid).resolve_left (hwrites id tag))
    · rw [hregistrations]
      exact hold.live
  registration := by
    rw [hops, hregistrations]
    exact h.registration
  unmade := by
    rw [hregistrations]
    exact h.unmade
  fresh id hid := by
    rw [hregistrations]
    exact h.fresh id (hnext.trans hid)
  stage := by
    rw [hops, hregistering]
    exact hstage
  calling := by
    rw [hregistering, hregistrations]
    exact hcalling

/-- While an entry is written it holds no handler but that of the call, and it holds that one once
it is valid. -/
theorem WriteOk.handler {field : EntryField} (h : WriteOk call e field) :
    (e.handler = none ∨ e.handler = some call.id) ∧
      (e.valid = true → e.handler = some call.id) := by
  cases field <;> simp_all [WriteOk]

/-- What a write leaves for the next one. -/
theorem WriteOk.next {field next : EntryField} (h : WriteOk call e field)
    (hnext : field.next = some next) (stage : RegisterStage) :
    WriteOk { call with stage } (call.write e field) next := by
  cases field <;> simp_all [EntryField.next] <;> subst hnext <;>
    simp_all [WriteOk, RegisterCall.write]

/-- The other registrations of an entry that is being written are settled. -/
theorem Inv.settled_of_written (h : s.Inv) {field : EntryField} (hcall : call ∈ s.registering)
    (hstage : call.stage = .write tag field) (hne : id ≠ call.id)
    (hid : (s.registrations id).tag = some tag) {e' : OperationEntry RegistrationId}
    (he' : e'.handler = none ∨ e'.handler = some call.id) :
    RegistrationOk id (s.registrations id) e' := by
  have hwrite : WriteOk call (s.reactor.operations tag) field := by
    have := (h.stage call hcall tag (by rw [hstage]; rfl)).2
    rwa [hstage] at this
  have hnot (e : OperationEntry RegistrationId)
      (he : e.handler = none ∨ e.handler = some call.id) : e.handler ≠ some id := by
    rcases he with he | he <;> simp [he, hne.symm]
  cases h.registration id tag hid with
  | live _ _ _ _ h₅ => exact absurd h₅ (hnot _ hwrite.handler.1)
  | pending _ _ _ _ h₅ => exact absurd h₅ (hnot _ hwrite.handler.1)
  | settled h₁ h₂ h₃ _ => exact .settled h₁ h₂ h₃ (hnot _ he')

/-- An entry that is being written has no operation and nothing is left to one. -/
theorem Inv.slot_written (h : s.Inv) {field : EntryField} (hcall : call ∈ s.registering)
    (hstage : call.stage = .write tag field) (hqueued : s'.queued = s.queued)
    (hexecuting : s'.executing = s.executing)
    (hholder : ∀ id, (call.write (s.reactor.operations tag) field).handler = some id →
      s'.Writes id tag ∨ (s'.registrations id).tag = some tag ∧
        (call.write (s.reactor.operations tag) field).valid = true)
    (hlive : (call.write (s.reactor.operations tag) field).valid = true →
      ∃ id, (call.write (s.reactor.operations tag) field).handler = some id ∧
        (s'.registrations id).deregistered = false) :
    s'.SlotOk tag (call.write (s.reactor.operations tag) field) := by
  have hold := h.slot tag
  have hposted := (h.stage call hcall tag (by rw [hstage]; rfl)).1
  have hnone : s.operationCount tag = 0 := by
    have := hold.posted
    rwa [hposted, Bool.toNat_false, Nat.le_zero] at this
  have hx : s.executing.countP (·.1 = tag) = 0 := by unfold operationCount at hnone; omega
  have hidle : (s.reactor.operations tag).executionInProgress = false := by
    by_contra hprogress
    have := hold.inProgress.mp (by simpa using hprogress)
    omega
  have hrelease : (s.reactor.operations tag).releaseHandlerMemory = false := by
    by_contra hrelease
    simp [(hold.release (by simpa using hrelease)).1] at hidle
  have hclose := hold.close_of_release hrelease
  -- none of the writes touches these members
  have hsame : (call.write (s.reactor.operations tag) field).executionInProgress = false ∧
      (call.write (s.reactor.operations tag) field).releaseHandlerMemory = false ∧
      (call.write (s.reactor.operations tag) field).closeIoSource = false := by
    cases field <;> exact ⟨hidle, hrelease, hclose⟩
  refine ⟨?_, ?_, ?_, ?_, ?_, ?_, hlive⟩
  · simp only [operationCount, hqueued, hexecuting] at hnone ⊢
    omega
  · rw [hsame.1, hexecuting, hx]
    simp
  · intro handler hmem
    rw [hexecuting] at hmem
    simpa using List.countP_eq_zero.mp hx _ hmem
  · simp [hsame.2.1]
  · simp [hsame.2.2]
  · intro id hid
    exact (hholder id hid).imp_right fun hmade => ⟨hmade.1, .inl hmade.2⟩

/-- The holder of an entry that is not being written is a registration that was made for it. -/
theorem Inv.holder_of_ne (h : s.Inv) {field : EntryField} (hcall : s.registering = some call)
    (hstage : call.stage = .write tag field) {u : HandlerTag} (hu : u ≠ tag)
    (hid : (s.reactor.operations u).handler = some id) :
    (s.registrations id).tag = some u ∧ ((s.reactor.operations u).valid = true ∨
      (s.reactor.operations u).releaseHandlerMemory = true) := by
  refine ((h.slot u).holder id hid).resolve_left ?_
  rintro ⟨call', hcall', -, field', hstage'⟩
  obtain rfl : call = call' := Option.some.inj (hcall.symm.trans hcall')
  rw [hstage] at hstage'
  exact hu (RegisterStage.write.inj hstage').1.symm

/-- A write that is not the last keeps the invariant. -/
theorem Inv.write_next (h : s.Inv) {field next : EntryField} (hcall : s.registering = some call)
    (hstage : call.stage = .write tag field) (hnext : field.next = some next)
    (hops : s'.reactor.operations = Function.update s.reactor.operations tag
      (call.write (s.reactor.operations tag) field))
    (hregistering : s'.registering = some { call with stage := .write tag next })
    (hnextId : s'.nextId = s.nextId) (hqueued : s'.queued = s.queued)
    (hexecuting : s'.executing = s.executing)
    (hregistrations : s'.registrations = s.registrations) : s'.Inv := by
  obtain ⟨hposted, hwrite⟩ := h.stage call hcall tag (by rw [hstage]; rfl)
  rw [hstage] at hwrite
  have hwrite' := WriteOk.next hwrite hnext (.write tag next)
  have hcalling := h.calling call hcall
  refine ⟨fun u => ?_, fun id u hid => ?_, ?_, ?_, ?_, ?_⟩
  · rw [hops]
    by_cases hu : u = tag
    · -- until the last write, the handler in the slot is held by the call
      subst hu
      rw [Function.update_self]
      refine h.slot_written hcall hstage hqueued hexecuting (fun id hid => .inl ?_) fun hvalid => ?_
      · refine ⟨_, hregistering, ?_, next, rfl⟩
        rcases hwrite'.handler.1 with hnone | hsome
        · simp [hnone] at hid
        · exact Option.some.inj (hsome.symm.trans hid)
      · refine ⟨call.id, hwrite'.handler.2 hvalid, ?_⟩
        rw [hregistrations, h.unmade _ hcalling.2]
    · rw [Function.update_of_ne hu]
      have hold := h.slot u
      refine hold.transfer hqueued hexecuting ?_ ?_
      · intro id hid
        rw [hregistrations]
        exact .inr (h.holder_of_ne hcall hstage hu hid)
      · rw [hregistrations]
        exact hold.live
  · rw [hregistrations] at hid ⊢
    rw [hops]
    by_cases hu : u = tag
    · subst hu
      rw [Function.update_self]
      refine h.settled_of_written hcall hstage ?_ hid hwrite'.handler.1
      rintro rfl
      simp [hcalling.2] at hid
    · rw [Function.update_of_ne hu]
      exact h.registration id u hid
  · rw [hregistrations]
    exact h.unmade
  · rw [hregistrations, hnextId]
    exact h.fresh
  · intro call' hcall' u hu
    obtain rfl := Option.some.inj (hregistering.symm.trans hcall')
    obtain rfl : tag = u := Option.some.inj hu
    rw [hops, Function.update_self]
    refine ⟨?_, hwrite'⟩
    cases field <;> first | exact hposted | rfl
  · intro call' hcall'
    obtain rfl := Option.some.inj (hregistering.symm.trans hcall')
    rw [hregistrations, hnextId]
    exact hcalling

/-- The last write makes the registration live. -/
theorem Inv.write_last (h : s.Inv) (hcall : s.registering = some call)
    (hstage : call.stage = .write tag .handlerPosted)
    (hops : s'.reactor.operations = Function.update s.reactor.operations tag
      (call.write (s.reactor.operations tag) .handlerPosted))
    (hregistering : s'.registering = none) (hnextId : s'.nextId = s.nextId)
    (hqueued : s'.queued = s.queued) (hexecuting : s'.executing = s.executing)
    (hregistrations : s'.registrations = Function.update s.registrations call.id
      { tag := some tag, ioSource := call.ioSource }) : s'.Inv := by
  obtain ⟨-, hwrite⟩ := h.stage call hcall tag (by rw [hstage]; rfl)
  rw [hstage] at hwrite
  obtain ⟨hvalid, hhandler, hsource⟩ := hwrite
  have hcalling := h.calling call hcall
  -- the other registrations were made before, so they stay as they are
  have hne (id) (htag : (s.registrations id).tag ≠ none) : id ≠ call.id := by
    rintro rfl
    exact htag hcalling.2
  refine ⟨fun u => ?_, fun id u hid => ?_, fun id hid => ?_, fun id hid => ?_, ?_, ?_⟩
  · rw [hops]
    by_cases hu : u = tag
    · subst hu
      rw [Function.update_self]
      refine h.slot_written hcall hstage hqueued hexecuting (fun id hid => .inr ⟨?_, hvalid⟩)
        fun _ => ⟨call.id, hhandler, ?_⟩
      · obtain rfl : call.id = id := Option.some.inj (hhandler.symm.trans hid)
        rw [hregistrations, Function.update_self]
      · rw [hregistrations, Function.update_self]
    · rw [Function.update_of_ne hu]
      have hold := h.slot u
      refine hold.transfer hqueued hexecuting ?_ ?_
      · intro id hid
        have hmade := h.holder_of_ne hcall hstage hu hid
        rw [hregistrations, Function.update_of_ne (hne id (by simp [hmade.1]))]
        exact .inr hmade
      · intro hvalid
        obtain ⟨id, hid, hderegistered⟩ := hold.live hvalid
        refine ⟨id, hid, ?_⟩
        have hmade := h.holder_of_ne hcall hstage hu hid
        rwa [hregistrations, Function.update_of_ne (hne id (by simp [hmade.1]))]
  · rw [hops]
    by_cases hid' : id = call.id
    · subst hid'
      rw [hregistrations, Function.update_self] at hid ⊢
      obtain rfl : tag = u := Option.some.inj hid
      rw [Function.update_self]
      exact .live rfl rfl rfl hvalid hhandler hsource
    · rw [hregistrations, Function.update_of_ne hid'] at hid ⊢
      by_cases hu : u = tag
      · subst hu
        rw [Function.update_self]
        exact h.settled_of_written hcall hstage hid' hid (.inr hhandler)
      · rw [Function.update_of_ne hu]
        exact h.registration id u hid
  · rw [hregistrations] at hid ⊢
    by_cases hid' : id = call.id
    · subst hid'
      simp at hid
    · rw [Function.update_of_ne hid'] at hid ⊢
      exact h.unmade id hid
  · rw [hnextId] at hid
    rw [hregistrations, Function.update_of_ne (Nat.ne_of_gt (lt_of_lt_of_le hcalling.1 hid))]
    exact h.fresh id hid
  · rw [hregistering]
    intro call' hcall'
    cases hcall'
  · rw [hregistering]
    intro call' hcall'
    cases hcall'

/-- What `RegisterImpl()` does next keeps the invariant. -/
theorem Inv.registerStep (h : s.Inv) (hcall : s.registering = some call) (resources : Bool) :
    (s.registerStep call resources).Inv := by
  have hcalling := h.calling call hcall
  -- a call that has not begun to write leaves the entries alone
  have hwrites (hstage : ∀ tag field, call.stage ≠ .write tag field) (id tag) :
      ¬ s.Writes id tag := by
    rintro ⟨call', hcall', -, field, hwrite⟩
    obtain rfl : call = call' := Option.some.inj (hcall.symm.trans hcall')
    exact hstage tag field hwrite
  have hends {s' : State} (hs' : s' = { s with registering := none })
      (hstage : ∀ tag field, call.stage ≠ .write tag field) : s'.Inv := by
    subst hs'
    exact h.advance rfl rfl le_rfl rfl rfl rfl (hwrites hstage) (fun _ h => by cases h)
      fun _ h => by cases h
  unfold State.registerStep
  split
  · rename_i it its position last hstage
    have hstage' : ∀ tag field, call.stage ≠ .write tag field := by simp [hstage]
    split
    · exact hends rfl hstage'
    · rename_i position' last' hvisit
      refine h.advance rfl rfl le_rfl rfl rfl rfl (hwrites hstage') ?_ ?_
      · intro call' hcall' tag htag
        obtain rfl := Option.some.inj hcall'
        rcases visitEntry_ok hvisit htag with hfound | ⟨rfl, hvalid, hposted⟩
        · have hold := h.stage call hcall tag (by rw [hstage]; exact hfound)
          rw [StageOk, hstage] at hold
          exact hold
        · exact ⟨hposted, hvalid⟩
      · intro call' hcall'
        obtain rfl := Option.some.inj hcall'
        exact hcalling
  · rename_i position last hstage
    have hstage' : ∀ tag field, call.stage ≠ .write tag field := by simp [hstage]
    obtain ⟨used, hused⟩ := s.reactor.exists_usedOperationsEnd last
    simp only [hused]
    cases position with
    | none =>
      exact h.advance rfl rfl le_rfl rfl rfl rfl (hwrites hstage') (fun _ h => by cases h)
        fun _ h => by cases h
    | some found =>
      refine h.advance rfl rfl le_rfl rfl rfl rfl (hwrites hstage') ?_ ?_
      · intro call' hcall' tag htag
        obtain rfl := Option.some.inj hcall'
        have hold := h.stage call hcall tag (by rw [hstage]; exact htag)
        rw [StageOk, hstage] at hold
        exact hold
      · intro call' hcall'
        obtain rfl := Option.some.inj hcall'
        exact hcalling
  · rename_i tag hstage
    have hstage' : ∀ tag field, call.stage ≠ .write tag field := by simp [hstage]
    have hfree := h.stage call hcall tag (by rw [hstage]; rfl)
    rw [StageOk, hstage] at hfree
    have hhandler := h.handler_of_free hfree.2 hfree.1 fun id => hwrites hstage' id tag
    -- the writes begin with a free entry
    have hbegin {s' : State} (hops : s'.reactor.operations = s.reactor.operations)
        (hregistering : s'.registering = some { call with stage := .write tag .ioSource })
        (hnext : s'.nextId = s.nextId) (hqueued : s'.queued = s.queued)
        (hexecuting : s'.executing = s.executing)
        (hregistrations : s'.registrations = s.registrations) : s'.Inv := by
      refine h.advance hops hregistering hnext.ge hqueued hexecuting hregistrations
        (hwrites hstage') ?_ ?_
      · intro call' hcall' u hu
        obtain rfl := Option.some.inj hcall'
        obtain rfl : tag = u := Option.some.inj hu
        exact ⟨hfree.1, hfree.2, hhandler⟩
      · intro call' hcall'
        obtain rfl := Option.some.inj hcall'
        rw [hnext]
        exact hcalling
    split
    · split
      · exact hends rfl hstage'
      · exact hbegin rfl rfl rfl rfl rfl rfl
    · exact hbegin rfl rfl rfl rfl rfl rfl
  · rename_i tag field hstage
    cases hnext : field.next with
    | some next => exact h.write_next hcall hstage hnext rfl rfl rfl rfl rfl rfl
    | none =>
      obtain rfl : field = .handlerPosted := by cases field <;> simp_all [EntryField.next]
      exact h.write_last hcall hstage rfl rfl rfl rfl rfl rfl

/-- A call of `RegisterImpl()` begins with the next name. -/
theorem Inv.register (h : s.Inv) (hregistering : s.registering = none) {its : List ℕ}
    {fd : NativeHandle} {events : Events} :
    Inv { s with
      registering := some ⟨s.nextId, fd, events, .visit its none none⟩
      nextId := s.nextId + 1 } := by
  refine h.advance rfl rfl (Nat.le_succ _) rfl rfl rfl ?_ ?_ ?_
  · rintro id tag ⟨call, hcall, -⟩
    simp [hregistering] at hcall
  · intro call hcall tag htag
    obtain rfl := Option.some.inj hcall
    cases htag
  · intro call hcall
    obtain rfl := Option.some.inj hcall
    exact ⟨Nat.lt_succ_self _, h.fresh _ le_rfl⟩

/-! ## All steps -/

/-- The invariant holds of a reactor that has just been built. -/
theorem Inv.init (size : ℕ) : Inv { reactor := { size } } where
  slot tag := {
    posted := by simp [operationCount]
    inProgress := by simp
    running := by simp
    release := by simp
    close := by simp
    holder := by simp
    live := by simp }
  registration id tag hid := by simp at hid
  unmade id hid := rfl
  fresh id hid := rfl
  stage call hcall := by cases hcall
  calling call hcall := by cases hcall

/-- `HandleSingleEvent()` keeps the invariant if it does not disturb a registration. -/
theorem Inv.handleEvent (h : s.Inv) (hC : s.Undisturbed .handleEvent)
    (hs' : s.step .handleEvent = some s') : s'.Inv := by
  simp only [step] at hs'
  split at hs'
  · cases hs'
  rename_i report batch hbatch
  obtain rfl := Option.some.inj hs'
  by_cases hreports : s.reactor.Reports report.event
  · rw [EpollReactor.handleSingleEvent_of_reports hreports]
    refine h.post hreports ?_ rfl rfl rfl ?_ rfl rfl
    · intro call hcall hslot
      exact hC report (by simp [hbatch]) call hcall hslot hreports
    · simp
  · -- the event is only recorded
    rw [EpollReactor.handleSingleEvent_of_not_reports hreports]
    exact h.setEntry_frame report.event.tag rfl rfl rfl (by simp) rfl rfl

/-- Every step that does not disturb a registration keeps the invariant. -/
theorem Inv.step {a : Action} (h : s.Inv) (hC : s.Undisturbed a) (hs' : s.step a = some s') :
    s'.Inv := by
  -- what the clients and the kernel do is not about the slots
  have hframe {s' : State} (hops : s'.reactor.operations = s.reactor.operations)
      (hregistering : s'.registering = s.registering) (hnext : s'.nextId = s.nextId)
      (hqueued : s'.queued = s.queued) (hexecuting : s'.executing = s.executing)
      (hregistrations : s'.registrations = s.registrations) : s'.Inv :=
    h.frame (fun tag => ⟨_, _, _, by rw [hops]⟩) hregistering hnext hqueued hexecuting
      hregistrations
  cases a with
  | openFd fd | closeFd fd | abandon =>
    obtain rfl := Option.some.inj hs'
    exact hframe rfl rfl rfl rfl rfl rfl
  | wait reports =>
    obtain ⟨-, hs'⟩ := Option.ite_none_right_eq_some.mp hs'
    obtain rfl := Option.some.inj hs'
    exact hframe rfl rfl rfl rfl rfl rfl
  | register fd events =>
    obtain ⟨hnone, hs'⟩ := Option.ite_none_right_eq_some.mp hs'
    obtain rfl := Option.some.inj hs'
    exact h.register (Option.isNone_iff_eq_none.mp hnone)
  | registerStep resources =>
    obtain ⟨call, hcall, rfl⟩ := Option.map_eq_some_iff.mp hs'
    exact h.registerStep hcall resources
  | deregister id closeOnDeregister =>
    obtain ⟨tag, htag, hderegistered, rfl⟩ := step_deregister hs'
    exact h.deregister htag hderegistered closeOnDeregister
  | start tag opType resources =>
    obtain ⟨-, hs'⟩ := Option.ite_none_right_eq_some.mp hs'
    obtain rfl := Option.some.inj hs'
    obtain ⟨interest, -, heq⟩ :=
      EpollReactor.onStartOfOperation_eq s.reactor tag opType resources
    rw [heq, EpollReactor.markOperationStarted_eq]
    exact h.setEntry_frame tag rfl rfl rfl rfl rfl rfl
  | ignore tag ev =>
    obtain rfl := Option.some.inj hs'
    exact h.setEntry_frame tag rfl rfl rfl rfl rfl rfl
  | consume tag ev =>
    obtain rfl := Option.some.inj hs'
    exact h.setEntry_frame tag rfl rfl rfl rfl rfl rfl
  | handleEvent => exact h.handleEvent hC hs'
  | begin tag =>
    obtain ⟨hmem, hs'⟩ := Option.ite_none_right_eq_some.mp hs'
    obtain rfl := Option.some.inj hs'
    exact h.beginOperation hmem
  | finish tag handler =>
    obtain ⟨hmem, hs'⟩ := Option.ite_none_right_eq_some.mp hs'
    obtain rfl := Option.some.inj hs'
    exact h.finishOperation hmem

end State

open State in
/-- The life cycle of I/O registrations. Take any run of the reactor thread, the executor threads
and the threads that register and deregister, in which no event is posted for an entry that
`RegisterImpl()` is writing. In every state reached each tag has at most one operation, no handler
of a deregistered registration can be started, and each deregistered registration has its handler
released and its descriptor closed, if that was requested, exactly once, as soon as its handler is
not running. -/
theorem life_cycle {s : State} (hs : machine.ReachableIn Undisturbed s) : s.LifeCycleOk :=
  (hs.invariant (I := Inv) (fun _ ⟨size, hs⟩ => hs ▸ Inv.init size)
    fun _ _ _ h hC hs' => h.step hC hs').toLifeCycleOk

/-- A registration for edge-triggered read events. -/
def readEdge : Events := { eventMask := EPOLLIN ||| EPOLLET }

open State in
/-- An entry is deregistered and its descriptor is to be closed while the handler is running.
Nothing is released or closed before the handler returns. -/
theorem life_cycle_deregistered_in_callback :
    ∃ s, machine.ReachableIn Undisturbed s ∧ (s.registrations 0).deregistered = true ∧
      (s.registrations 0).closeRequested = true ∧ s.IsRunning 0 ∧ s.LifeCycleOk := by
  have hs := ToMathlib.Machine.reachableIn_get_run (M := machine) (C := Undisturbed)
    (s := { reactor := { size := 1 } })
    (l := List.flatten [[.openFd 5, .register 5 readEdge], List.replicate 9 (.registerStep true),
      [.wait [(5, EPOLLIN)], .handleEvent, .begin 0, .deregister 0 true]]) ⟨1, rfl⟩ (by decide)
  exact ⟨_, hs, by decide, by decide, by decide, life_cycle hs⟩

open State in
/-- An event comes between the writes of `valid_` and of `handler_posted_`. Its operation is queued,
but the entry is not posted any more, so the next event queues a second operation. -/
theorem life_cycle_event_during_registration :
    ∃ s, machine.Reachable s ∧ s.registering = none ∧ s.queued = [0, 0] ∧ ¬ s.LifeCycleOk := by
  have hs := ToMathlib.Machine.reachableIn_get_run (M := machine)
    (C := ToMathlib.Machine.Always) (s := { reactor := { size := 1 } })
    (l := List.flatten [[.openFd 5, .register 5 readEdge], List.replicate 7 (.registerStep true),
      [.wait [(5, EPOLLIN)], .handleEvent, .registerStep true, .registerStep true,
        .wait [(5, EPOLLIN)], .handleEvent]]) ⟨1, rfl⟩ (by decide)
  refine ⟨_, hs, by decide, by decide, fun hok => ?_⟩
  exact absurd (hok.single 0) (by decide)

end Asrt.Reactor.LifeCycle
