import Asrt.Reactor.LifeCycle

/-!
# Events of an earlier registration

An event that `epoll_wait()` returns carries the slot of its registration and nothing else;
`sequence_number_` is never used. If the slot is deregistered and registered again while the event
waits in the batch, the reactor takes it for an event of the new registration.

`no_stale_event` shows that this is the only way: the interest in a descriptor belongs to the
registration that the slot is valid for, so an event is stale only if its slot became valid again
after the event was fetched.
-/

namespace Asrt.Reactor

namespace EpollReactor

variable {H : Type} {r r' : EpollReactor H} {tag : HandlerTag}

/-- A successful deregistration takes the descriptor out of the interest list. -/
theorem derigsterImpl_interest {closeOnDeregister : Bool}
    (h : r.derigsterImpl tag closeOnDeregister = (r', .ok ())) :
    r'.kernel.interest =
      Function.update r.kernel.interest (r.operations tag).ioSource none := by
  have hremove {kernel : Kernel}
      (hk : r.kernel.epollRemove (r.operations tag).ioSource = .ok kernel) :
      kernel.interest = Function.update r.kernel.interest (r.operations tag).ioSource none := by
    unfold Kernel.epollRemove at hk
    split_ifs at hk
    rw [← Except.ok.inj hk]
  simp only [derigsterImpl] at h
  split at h
  · cases (Prod.mk.inj h).2
  split at h
  · cases (Prod.mk.inj h).2
  rename_i kernel hk
  split at h
  · obtain ⟨rfl, -⟩ := Prod.mk.inj h
    split
    -- closing removes the descriptor once more
    · simp [Kernel.closeFd, hremove hk]
    · exact hremove hk
  · obtain ⟨rfl, -⟩ := Prod.mk.inj h
    exact hremove hk

/-- Starting an operation may set the interest in the descriptor of the entry, under its tag. -/
theorem onStartOfOperation_interest (r : EpollReactor H) (tag : HandlerTag) (opType : Events)
    (resources : Bool) :
    (r.onStartOfOperation tag opType resources).kernel.interest = r.kernel.interest ∨
    ∃ mask, (r.onStartOfOperation tag opType resources).kernel.interest =
      Function.update r.kernel.interest (r.operations tag).ioSource (some ⟨mask, tag⟩) := by
  have hkernel := r.markOperationStarted_kernel tag opType
  have hsource : ((r.markOperationStarted tag opType).operations tag).ioSource =
      (r.operations tag).ioSource := by
    rw [markOperationStarted_operations, Function.update_self]
  simp only [onStartOfOperation]
  split
  · split
    · rename_i kernel hmod
      -- `epoll_ctl()` modifies the event of this descriptor, under the same tag
      right
      rw [hkernel, hsource] at hmod
      rw [Kernel.eq_of_epollModify hmod]
      exact ⟨_, rfl⟩
    · exact .inl (by rw [hkernel])
  · exact .inl (by rw [hkernel])

/-- The entries are valid, or not, for the same descriptors, and the interest list holds nothing
new. -/
structure Keeps (r r' : EpollReactor H) : Prop where
  valid : ∀ tag, (r'.operations tag).valid = (r.operations tag).valid
  ioSource : ∀ tag, (r'.operations tag).ioSource = (r.operations tag).ioSource
  interest : ∀ fd event, r'.kernel.interest fd = some event → r.kernel.interest fd = some event

/-- An entry is replaced by one that is valid, or not, for the same descriptor. -/
theorem keeps_setEntry {entry : OperationEntry H}
    (hops : r'.operations = Function.update r.operations tag entry)
    (hvalid : entry.valid = (r.operations tag).valid)
    (hsource : entry.ioSource = (r.operations tag).ioSource)
    (hinterest : ∀ fd event, r'.kernel.interest fd = some event →
      r.kernel.interest fd = some event) : r.Keeps r' := by
  refine ⟨fun u => ?_, fun u => ?_, hinterest⟩
  · rw [hops]
    by_cases hu : u = tag
    · subst hu
      rw [Function.update_self, hvalid]
    · rw [Function.update_of_ne hu]
  · rw [hops]
    by_cases hu : u = tag
    · subst hu
      rw [Function.update_self, hsource]
    · rw [Function.update_of_ne hu]

/-- Closing a descriptor takes it out of the interest list. -/
theorem interest_of_closeFd {k : Kernel} {fd fd' : NativeHandle} {event : EpollEvent}
    (h : (k.closeFd fd').interest fd = some event) : k.interest fd = some event := by
  simp only [Kernel.closeFd] at h
  by_cases hfd : fd = fd'
  · subst hfd
    simp at h
  · rwa [Function.update_of_ne hfd] at h

/-- The end of an operation may close the descriptor of the entry. -/
theorem keeps_cleanupOperation (r : EpollReactor H) (tag : HandlerTag) :
    r.Keeps (r.cleanupOperation tag) := by
  refine keeps_setEntry (show (r.cleanupOperation tag).operations =
    Function.update r.operations tag _ from rfl) rfl rfl fun fd event hevent => ?_
  simp only [cleanupOperation, setEntry_kernel] at hevent
  split at hevent
  · exact interest_of_closeFd hevent
  · exact hevent

end EpollReactor

namespace LifeCycle

namespace State

/-- The next event of the batch, if it was reported for another registration than the one its entry
is valid for, changes neither the captured events of the entry nor the queued operations. -/
def NoStaleEvent (s : State) : Prop :=
  ∀ report ∈ s.batch.head?, ∀ s', s.step .handleEvent = some s' →
    (s.reactor.operations report.event.tag).valid = true →
    s.registrant report.event.tag ≠ report.registration →
    (s'.reactor.operations report.event.tag).capturedEvents =
      (s.reactor.operations report.event.tag).capturedEvents ∧ s'.queued = s.queued

/-- The condition on a step: `RegisterImpl()` does not make an entry valid while the batch holds an
event that was reported for an earlier registration of the entry. -/
def SlotUnreported (s : State) : Action → Prop
  | .registerStep _ => ∀ call ∈ s.registering, ∀ report ∈ s.batch,
      call.stage = .write report.event.tag .valid → report.registration = call.id
  | _ => True

instance (s : State) : (a : Action) → Decidable (s.SlotUnreported a)
  | .registerStep _ => inferInstanceAs (Decidable (∀ _ ∈ _, ∀ _ ∈ _, _ → _))
  | .openFd _ | .closeFd _ | .register _ _ | .deregister _ _ | .start _ _ _ | .ignore _ _
  | .consume _ _ | .wait _ | .handleEvent | .abandon | .begin _ | .finish _ _ =>
    inferInstanceAs (Decidable True)

/-! ## The invariant -/

/-- What a call of `RegisterImpl()` can rely on about the slot it has found: the entry is not valid
until the call makes it so, and is the call's own from then on. -/
def Claimed (s : State) (call : RegisterCall) (tag : HandlerTag) : Prop :=
  match call.stage with
  | .visit _ _ _ | .add _ | .write _ .ioSource => (s.reactor.operations tag).valid = false
  | .write _ .handler | .write _ .valid =>
    (s.reactor.operations tag).valid = false ∧
      (s.reactor.operations tag).ioSource = call.ioSource
  | .write _ _ => (s.reactor.operations tag).valid = true ∧ s.registrant tag = call.id

/-- The interest in a descriptor is that of the registration that its slot is valid for, or of the
call that is about to make it valid. -/
def Owned (s : State) (fd : NativeHandle) (tag : HandlerTag) : Prop :=
  (s.reactor.operations tag).valid = true ∧ s.registrant tag = s.interestOwner fd ∧
      (s.reactor.operations tag).ioSource = fd ∨
    (s.reactor.operations tag).valid = false ∧ ∃ call ∈ s.registering,
      (∃ field, call.stage = .write tag field) ∧ call.id = s.interestOwner fd ∧ call.ioSource = fd

/-- The invariant. -/
structure Tracked (s : State) : Prop where
  /-- An event of a valid entry was reported for its registration. -/
  batch : ∀ report ∈ s.batch, (s.reactor.operations report.event.tag).valid = true →
    s.registrant report.event.tag = report.registration
  interest : ∀ fd event, s.reactor.kernel.interest fd = some event → s.Owned fd event.tag
  /-- The entry of a registration is valid until it is deregistered. -/
  made : ∀ id tag, (s.registrations id).tag = some tag →
    (s.registrations id).deregistered = false →
    (s.reactor.operations tag).valid = true ∧ s.registrant tag = id
  claimed : ∀ call ∈ s.registering, ∀ tag, call.stage.slot = some tag → s.Claimed call tag
  /-- The call that is being made has a name of its own. -/
  calling : ∀ call ∈ s.registering, call.id < s.nextId ∧ (s.registrations call.id).tag = none
  /-- The names from `nextId` on are not in use. -/
  fresh : ∀ id, s.nextId ≤ id → (s.registrations id).tag = none

variable {s s' : State} {tag : HandlerTag} {id : RegistrationId} {call : RegisterCall}

/-- Under the invariant the next event of a valid entry is its own. -/
theorem Tracked.noStaleEvent (h : s.Tracked) : s.NoStaleEvent := by
  intro report hreport s' _ hvalid hlater
  exact absurd (h.batch report (List.mem_of_mem_head? hreport) hvalid) hlater

/-- A step that keeps the entries valid and the registrations and calls as they are keeps the
invariant if the interests are owned. -/
theorem Tracked.frame_of_owned (h : s.Tracked)
    (hvalid : ∀ tag, (s'.reactor.operations tag).valid = (s.reactor.operations tag).valid)
    (hsource : ∀ tag, (s'.reactor.operations tag).ioSource = (s.reactor.operations tag).ioSource)
    (hinterest : ∀ fd event, s'.reactor.kernel.interest fd = some event → s'.Owned fd event.tag)
    (hregistrant : s'.registrant = s.registrant)
    (hbatch : ∀ report ∈ s'.batch, report ∈ s.batch)
    (hregistering : s'.registering = s.registering) (hnext : s'.nextId = s.nextId)
    (hregistrations : ∀ id, (s'.registrations id).tag = (s.registrations id).tag ∧
      (s'.registrations id).deregistered = (s.registrations id).deregistered) : s'.Tracked where
  batch report hreport hv := by
    rw [hregistrant]
    exact h.batch report (hbatch report hreport) (hvalid _ ▸ hv)
  interest := hinterest
  made id tag htag hderegistered := by
    rw [hvalid, hregistrant]
    exact h.made id tag ((hregistrations id).1 ▸ htag) ((hregistrations id).2 ▸ hderegistered)
  claimed call hcall tag htag := by
    have hold := h.claimed call (hregistering ▸ hcall) tag htag
    rwa [Claimed, hvalid, hsource, hregistrant]
  calling call hcall := by
    rw [hnext, (hregistrations call.id).1]
    exact h.calling call (hregistering ▸ hcall)
  fresh id hid := by
    rw [(hregistrations id).1]
    exact h.fresh id (hnext ▸ hid)

/-- A step that adds no interest and keeps the entries valid and the registrations and calls as they
are keeps the invariant. -/
theorem Tracked.frame (h : s.Tracked) (hreactor : s.reactor.Keeps s'.reactor)
    (howner : s'.interestOwner = s.interestOwner) (hregistrant : s'.registrant = s.registrant)
    (hbatch : ∀ report ∈ s'.batch, report ∈ s.batch)
    (hregistering : s'.registering = s.registering) (hnext : s'.nextId = s.nextId)
    (hregistrations : ∀ id, (s'.registrations id).tag = (s.registrations id).tag ∧
      (s'.registrations id).deregistered = (s.registrations id).deregistered) : s'.Tracked := by
  refine h.frame_of_owned hreactor.valid hreactor.ioSource (fun fd event hevent => ?_) hregistrant
    hbatch hregistering hnext hregistrations
  have hold := h.interest fd event (hreactor.interest fd event hevent)
  rwa [Owned, hreactor.valid, hreactor.ioSource, howner, hregistrant, hregistering]

/-! ## Operations and events -/

/-- The end of an operation keeps the invariant. -/
theorem Tracked.cleanup (h : s.Tracked) {queued : List HandlerTag}
    {executing : List (HandlerTag × Option RegistrationId)}
    {reactor : EpollReactor RegistrationId} (hreactor : s.reactor.Keeps reactor) :
    ({ s with queued, executing }.cleanup tag reactor).Tracked := by
  rw [cleanup_eq]
  exact h.frame hreactor rfl rfl (fun _ h => h) rfl rfl
    fun id => settle_frame ..

/-- The first part of an operation keeps the invariant. -/
theorem Tracked.beginOperation (h : s.Tracked) : (s.beginOperation tag).Tracked := by
  unfold State.beginOperation
  rcases EpollReactor.beginOperation_cases s.reactor tag with
    ⟨hvalid, heq⟩ | ⟨hvalid, heq⟩ | ⟨-, heq⟩
  · simp only [heq, hvalid, Bool.false_eq_true, if_false]
    exact h.frame ⟨fun _ => rfl, fun _ => rfl, fun _ _ h => h⟩ rfl rfl (fun _ h => h) rfl rfl
      fun _ => ⟨rfl, rfl⟩
  · simp only [heq, hvalid, if_true]
    exact h.cleanup (EpollReactor.keeps_cleanupOperation s.reactor tag)
  · -- the report writes flags of the entry only
    simp only [heq]
    exact h.frame (EpollReactor.keeps_setEntry rfl rfl rfl fun _ _ h => h) rfl rfl
      (fun _ h => h) rfl rfl fun _ => ⟨rfl, rfl⟩

/-- The second part of an operation keeps the invariant. -/
theorem Tracked.finishOperation (h : s.Tracked) {handler : Option RegistrationId} :
    (s.finishOperation tag handler).Tracked := by
  refine h.cleanup ?_
  rw [EpollReactor.finishOperation_eq]
  refine EpollReactor.keeps_setEntry rfl rfl rfl fun fd event hevent => ?_
  simp only [EpollReactor.setEntry_kernel] at hevent
  split at hevent
  · exact EpollReactor.interest_of_closeFd hevent
  · exact hevent

/-- `HandleSingleEvent()` keeps the invariant. -/
theorem Tracked.handleEvent (h : s.Tracked) (hs' : s.step .handleEvent = some s') :
    s'.Tracked := by
  simp only [step] at hs'
  split at hs'
  · cases hs'
  rename_i report batch hbatch
  obtain rfl := Option.some.inj hs'
  have hkeeps : s.reactor.Keeps (s.reactor.handleSingleEvent report.event []).1 := by
    obtain ⟨posted, heq, -⟩ := EpollReactor.handleSingleEvent_eq s.reactor report.event []
    rw [heq]
    exact EpollReactor.keeps_setEntry rfl rfl rfl fun _ _ h => h
  refine h.frame hkeeps rfl rfl ?_ rfl rfl fun _ => ⟨rfl, rfl⟩
  intro report' hreport'
  rw [hbatch]
  exact List.mem_cons_of_mem _ hreport'

/-- A batch holds events of the registrations that own the interests. -/
theorem Tracked.wait (h : s.Tracked) (reports : List (NativeHandle × BitVec 32)) :
    Tracked { s with batch := reports.filterMap fun r => s.report r.1 r.2 } := by
  refine ⟨?_, h.interest, h.made, h.claimed, h.calling, h.fresh⟩
  intro report hreport hvalid
  obtain ⟨⟨fd, mask⟩, -, hfd⟩ := List.mem_filterMap.mp hreport
  obtain ⟨event, hevent, rfl⟩ := Option.map_eq_some_iff.mp hfd
  rcases h.interest fd event hevent with ⟨-, howner, -⟩ | ⟨hinvalid, -⟩
  · exact howner
  · simp [hinvalid] at hvalid

/-- Starting an operation keeps the invariant: the interest it may set is that of the entry. -/
theorem Tracked.start (h : s.Tracked) (hvalid : (s.reactor.operations tag).valid = true)
    (opType : Events) (resources : Bool) :
    (s.setInterest (s.reactor.onStartOfOperation tag opType resources)
      (s.registrant tag)).Tracked := by
  have hinterest := EpollReactor.onStartOfOperation_interest s.reactor tag opType resources
  obtain ⟨interest, -, heq⟩ := EpollReactor.onStartOfOperation_eq s.reactor tag opType resources
  have hentries : s.reactor.Keeps
      { s.reactor.onStartOfOperation tag opType resources with kernel := s.reactor.kernel } := by
    rw [heq, EpollReactor.markOperationStarted_eq]
    exact EpollReactor.keeps_setEntry rfl rfl rfl fun _ _ h => h
  have hv (u) : ((s.reactor.onStartOfOperation tag opType resources).operations u).valid =
      (s.reactor.operations u).valid := hentries.valid u
  have hio (u) : ((s.reactor.onStartOfOperation tag opType resources).operations u).ioSource =
      (s.reactor.operations u).ioSource := hentries.ioSource u
  refine h.frame_of_owned hv hio (fun fd event hevent => ?_) rfl (fun _ h => h) rfl rfl
    fun _ => ⟨rfl, rfl⟩
  simp only [setInterest] at hevent
  simp only [Owned, setInterest, hv, hio]
  by_cases hsame : (s.reactor.onStartOfOperation tag opType resources).kernel.interest fd =
      s.reactor.kernel.interest fd
  · rw [if_pos hsame]
    exact h.interest fd event (hsame ▸ hevent)
  · -- the interest is set anew, for the entry
    rw [if_neg hsame]
    rcases hinterest with hold | ⟨mask, hnew⟩
    · exact absurd (congrFun hold fd) hsame
    · rw [hnew] at hevent hsame
      by_cases hfd : fd = (s.reactor.operations tag).ioSource
      · subst hfd
        rw [Function.update_self] at hevent
        obtain rfl := Option.some.inj hevent
        exact .inl ⟨hvalid, rfl, rfl⟩
      · exact absurd (Function.update_of_ne hfd _ _) hsame

/-! ## Registration and deregistration -/

/-- The slot of a live registration is claimed by no call. -/
theorem Tracked.slot_ne (h : s.Tracked) (hcall : call ∈ s.registering)
    (hid : (s.registrations id).tag = some tag)
    (hderegistered : (s.registrations id).deregistered = false) :
    call.stage.slot ≠ some tag := by
  intro hslot
  obtain ⟨hvalid, hregistrant⟩ := h.made id tag hid hderegistered
  have hne : id ≠ call.id := by
    rintro rfl
    simp [(h.calling call hcall).2] at hid
  have hclaimed := h.claimed call hcall tag hslot
  unfold Claimed at hclaimed
  -- the slot is not yet valid, or valid for the call
  cases hs : call.stage with
  | visit its position last => simp [hs, hvalid] at hclaimed
  | add u => simp [hs, hvalid] at hclaimed
  | write u field => cases field <;> simp [hs, hvalid, hregistrant, hne] at hclaimed

/-- The entry of a live registration becomes invalid and the interest in its descriptor ends. -/
theorem Tracked.invalidate (h : s.Tracked) (hid : (s.registrations id).tag = some tag)
    (hderegistered : (s.registrations id).deregistered = false)
    (hfalse : (s'.reactor.operations tag).valid = false)
    (hothers : ∀ u, u ≠ tag → s'.reactor.operations u = s.reactor.operations u)
    (hinterest : s'.reactor.kernel.interest =
      Function.update s.reactor.kernel.interest (s.reactor.operations tag).ioSource none)
    (howner : s'.interestOwner = s.interestOwner) (hregistrant : s'.registrant = s.registrant)
    (hbatch : s'.batch = s.batch) (hregistering : s'.registering = s.registering)
    (hnext : s'.nextId = s.nextId)
    (htags : ∀ id', (s'.registrations id').tag = (s.registrations id').tag)
    (hend : (s'.registrations id).deregistered = true)
    (hrest : ∀ id', id' ≠ id →
      (s'.registrations id').deregistered = (s.registrations id').deregistered) : s'.Tracked := by
  obtain ⟨hvalid, hown⟩ := h.made id tag hid hderegistered
  refine ⟨?_, ?_, ?_, ?_, ?_, ?_⟩
  · intro report hreport hv
    rw [hbatch] at hreport
    have hne : report.event.tag ≠ tag := by
      rintro htag
      simp [htag, hfalse] at hv
    rw [hothers _ hne] at hv
    rw [hregistrant]
    exact h.batch report hreport hv
  · intro fd event hevent
    rw [hinterest] at hevent
    have hfd : fd ≠ (s.reactor.operations tag).ioSource := by
      rintro rfl
      simp at hevent
    rw [Function.update_of_ne hfd] at hevent
    have hold := h.interest fd event hevent
    -- the interests of the entry are those in its descriptor
    have hne : event.tag ≠ tag := by
      intro htag
      rw [Owned, htag] at hold
      rcases hold with ⟨-, -, hio⟩ | ⟨hinvalid, -⟩
      · exact hfd hio.symm
      · simp [hvalid] at hinvalid
    rwa [Owned, hothers _ hne, howner, hregistrant, hregistering]
  · intro id' u hid' hlive
    have hne : id' ≠ id := by
      rintro rfl
      simp [hend] at hlive
    rw [htags] at hid'
    rw [hrest id' hne] at hlive
    obtain ⟨hv, hr⟩ := h.made id' u hid' hlive
    have hu : u ≠ tag := by
      rintro rfl
      exact hne (hr.symm.trans hown)
    rw [hothers u hu, hregistrant]
    exact ⟨hv, hr⟩
  · intro call hcall u hslot
    rw [hregistering] at hcall
    have hu : u ≠ tag := by
      rintro rfl
      exact h.slot_ne hcall hid hderegistered hslot
    have hold := h.claimed call hcall u hslot
    rwa [Claimed, hothers u hu, hregistrant]
  · intro call hcall
    rw [hregistering] at hcall
    rw [hnext, htags]
    exact h.calling call hcall
  · intro id' hid'
    rw [htags]
    exact h.fresh id' (hnext ▸ hid')

/-- A deregistration takes its interest away with the validity of the entry. -/
theorem Tracked.deregister (h : s.Tracked) (hid : (s.registrations id).tag = some tag)
    (hderegistered : (s.registrations id).deregistered = false) (closeOnDeregister : Bool) :
    (s.deregister id tag closeOnDeregister).Tracked := by
  unfold State.deregister
  split
  · rename_i reactor ec hder
    obtain rfl := EpollReactor.derigsterImpl_error hder
    exact h
  rename_i reactor hder
  have hinterest := EpollReactor.derigsterImpl_interest hder
  obtain ⟨hfalse, hothers⟩ : (reactor.operations tag).valid = false ∧
      ∀ u, u ≠ tag → reactor.operations u = s.reactor.operations u := by
    obtain ⟨-, kernel, handler, release, close, rfl⟩ := EpollReactor.derigsterImpl_ok hder
    simp +contextual
  -- what is recorded of the handler matters to no one here
  have hrecord (s₁ : State) : ∃ registrations,
      (if (s₁.reactor.operations tag).executionInProgress = true then s₁
        else s₁.settle tag true closeOnDeregister) = { s₁ with registrations } ∧
      ∀ id', (registrations id').tag = (s₁.registrations id').tag ∧
        (registrations id').deregistered = (s₁.registrations id').deregistered := by
    split
    · exact ⟨s₁.registrations, rfl, fun _ => ⟨rfl, rfl⟩⟩
    · exact ⟨_, settle_eq .., fun _ => settle_frame ..⟩
  obtain ⟨registrations, heq, hsame⟩ := hrecord (s.setRegistration id
    { s.registrations id with deregistered := true, closeRequested := closeOnDeregister })
  simp only [heq]
  refine h.invalidate hid hderegistered hfalse hothers hinterest rfl rfl rfl rfl rfl ?_ ?_ ?_
  · intro id'
    rw [(hsame id').1]
    by_cases hne : id' = id
    · subst hne
      simp [setRegistration]
    · simp [setRegistration, Function.update_of_ne hne]
  · rw [(hsame id).2]
    simp [setRegistration]
  · intro id' hne
    rw [(hsame id').2]
    simp [setRegistration, Function.update_of_ne hne]

/-- A call of `RegisterImpl()` that has not begun to write goes on. -/
theorem Tracked.advance (h : s.Tracked) {registering : Option RegisterCall}
    (hops : s'.reactor.operations = s.reactor.operations)
    (hinterest : ∀ fd event, s'.reactor.kernel.interest fd = some event → s'.Owned fd event.tag)
    (hregistrant : s'.registrant = s.registrant) (hbatch : s'.batch = s.batch)
    (hregistering : s'.registering = registering) (hnext : s.nextId ≤ s'.nextId)
    (hregistrations : s'.registrations = s.registrations)
    (hclaimed : ∀ call ∈ registering, ∀ tag, call.stage.slot = some tag → s.Claimed call tag)
    (hcalling : ∀ call ∈ registering,
      call.id < s'.nextId ∧ (s.registrations call.id).tag = none) : s'.Tracked := by
  refine ⟨?_, hinterest, ?_, ?_, ?_, ?_⟩
  · rw [hbatch, hops, hregistrant]
    exact h.batch
  · rw [hops, hregistrant, hregistrations]
    exact h.made
  · intro call hcall tag htag
    rw [Claimed, hops, hregistrant]
    exact hclaimed call (hregistering ▸ hcall) tag htag
  · rw [hregistering, hregistrations]
    exact hcalling
  · intro id hid
    rw [hregistrations]
    exact h.fresh id (hnext.trans hid)

/-- An interest is that of a valid entry unless a call is writing its slot. -/
theorem Owned.valid {fd : NativeHandle} (h : s.Owned fd tag)
    (hwrites : ∀ call ∈ s.registering, ∀ field, call.stage ≠ .write tag field) :
    (s.reactor.operations tag).valid = true ∧ s.registrant tag = s.interestOwner fd ∧
      (s.reactor.operations tag).ioSource = fd := by
  rcases h with hvalid | ⟨-, call, hcall, ⟨field, hfield⟩, -⟩
  · exact hvalid
  · exact absurd hfield (hwrites call hcall field)

/-- What a write of `RegisterImpl()` does to its slot, whose entry was `e` and becomes `e'`: the
slot stays invalid, it becomes valid for the call, or it was valid for the call already. -/
inductive WriteEffect (s : State) (call : RegisterCall) (tag : HandlerTag) (field : EntryField)
    (e e' : OperationEntry RegistrationId) : Prop
  | staysInvalid (hvalid : e.valid = false) (hvalid' : e'.valid = false) (hfield : field ≠ .valid)
  | becomesValid (hvalid : e.valid = false) (hvalid' : e'.valid = true) (hfield : field = .valid)
    (hsource' : e'.ioSource = call.ioSource)
  | staysValid (hvalid : e.valid = true) (hvalid' : e'.valid = true) (hfield : field ≠ .valid)
    (hregistrant : s.registrant tag = call.id) (hsource' : e'.ioSource = e.ioSource)

/-- Every write has one of these effects. -/
theorem Claimed.writeEffect {field : EntryField} (h : s.Claimed call tag)
    (hstage : call.stage = .write tag field) :
    WriteEffect s call tag field (s.reactor.operations tag)
      (call.write (s.reactor.operations tag) field) := by
  rw [Claimed, hstage] at h
  cases field with
  | ioSource => exact .staysInvalid h h EntryField.noConfusion
  | handler => exact .staysInvalid h.1 h.1 EntryField.noConfusion
  | valid => exact .becomesValid h.1 rfl rfl h.2
  | monitoredEvents => exact .staysValid h.1 h.1 EntryField.noConfusion h.2 rfl
  | capturedEvents => exact .staysValid h.1 h.1 EntryField.noConfusion h.2 rfl
  | handlerPosted => exact .staysValid h.1 h.1 EntryField.noConfusion h.2 rfl

/-- The claim on the slot after a write that is not the last. -/
theorem Claimed.next {field next : EntryField} (h : s.Claimed call tag)
    (hstage : call.stage = .write tag field) (hnext : field.next = some next)
    (hentry : s'.reactor.operations tag = call.write (s.reactor.operations tag) field)
    (hregistrant : s'.registrant =
      if field = .valid then Function.update s.registrant tag call.id else s.registrant) :
    s'.Claimed { call with stage := .write tag next } tag := by
  rw [Claimed, hstage] at h
  simp only [Claimed, hentry, hregistrant]
  cases field with
  | ioSource =>
    obtain rfl := Option.some.inj hnext
    exact ⟨h, rfl⟩
  | handler =>
    obtain rfl := Option.some.inj hnext
    exact h
  | valid =>
    obtain rfl := Option.some.inj hnext
    exact ⟨rfl, by simp⟩
  | monitoredEvents =>
    obtain rfl := Option.some.inj hnext
    exact h
  | capturedEvents =>
    obtain rfl := Option.some.inj hnext
    exact h
  | handlerPosted => cases hnext

/-- A write keeps the events and the interests with their registrations, if the batch holds no event
of an earlier registration when the slot becomes valid. -/
theorem Tracked.written (h : s.Tracked) {field : EntryField} (hcall : s.registering = some call)
    (hstage : call.stage = .write tag field)
    (hreported : field = .valid →
      ∀ report ∈ s.batch, report.event.tag = tag → report.registration = call.id)
    (hops : s'.reactor.operations = Function.update s.reactor.operations tag
      (call.write (s.reactor.operations tag) field))
    (hregistrant : s'.registrant =
      if field = .valid then Function.update s.registrant tag call.id else s.registrant)
    (hbatch : s'.batch = s.batch)
    (hinterest : s'.reactor.kernel.interest = s.reactor.kernel.interest)
    (howner : s'.interestOwner = s.interestOwner)
    (hgoes : (call.write (s.reactor.operations tag) field).valid = false →
      ∃ call' ∈ s'.registering, (∃ next, call'.stage = .write tag next) ∧ call'.id = call.id ∧
        call'.ioSource = call.ioSource) :
    (∀ report ∈ s'.batch, (s'.reactor.operations report.event.tag).valid = true →
      s'.registrant report.event.tag = report.registration) ∧
    ∀ fd event, s'.reactor.kernel.interest fd = some event → s'.Owned fd event.tag := by
  have heffect := (h.claimed call hcall tag (by rw [hstage]; rfl)).writeEffect hstage
  have hentry : s'.reactor.operations tag = call.write (s.reactor.operations tag) field := by
    rw [hops, Function.update_self]
  have hothers (u) (hu : u ≠ tag) : s'.reactor.operations u = s.reactor.operations u ∧
      s'.registrant u = s.registrant u := by
    rw [hops, hregistrant, Function.update_of_ne hu]
    split
    · exact ⟨rfl, Function.update_of_ne hu _ _⟩
    · exact ⟨rfl, rfl⟩
  -- the only call is the one that writes
  have honly (call') (hcall' : call' ∈ s.registering) : call' = call :=
    Option.some.inj (hcall'.symm.trans hcall)
  constructor
  · intro report hreport hvalid
    rw [hbatch] at hreport
    by_cases hu : report.event.tag = tag
    · rw [hu] at hvalid ⊢
      rw [hentry] at hvalid
      cases heffect with
      | staysInvalid _ hvalid' => simp [hvalid'] at hvalid
      | becomesValid _ _ hfield =>
        rw [hregistrant, if_pos hfield, Function.update_self]
        exact (hreported hfield report hreport hu).symm
      | staysValid hold _ hfield =>
        rw [hregistrant, if_neg hfield]
        exact hu ▸ h.batch report hreport (hu ▸ hold)
    · rw [(hothers _ hu).1] at hvalid
      rw [(hothers _ hu).2]
      exact h.batch report hreport hvalid
  · intro fd event hevent
    rw [hinterest] at hevent
    have hold := h.interest fd event hevent
    by_cases hu : event.tag = tag
    · rw [hu] at hold ⊢
      unfold Owned at hold ⊢
      rw [hentry, howner]
      cases heffect with
      | staysInvalid hvalid hvalid' =>
        obtain ⟨-, call', hcall', -, hid, hsource⟩ := hold.resolve_left (by simp [hvalid])
        obtain rfl := honly call' hcall'
        obtain ⟨next, hmem, hwrites, hid', hsource'⟩ := hgoes hvalid'
        exact .inr ⟨hvalid', next, hmem, hwrites, hid'.trans hid, hsource'.trans hsource⟩
      | becomesValid hvalid hvalid' hfield hsource' =>
        obtain ⟨-, call', hcall', -, hid, hsource⟩ := hold.resolve_left (by simp [hvalid])
        obtain rfl := honly call' hcall'
        refine .inl ⟨hvalid', ?_, hsource'.trans hsource⟩
        rw [hregistrant, if_pos hfield, Function.update_self, hid]
      | staysValid hvalid hvalid' hfield _ hsource' =>
        obtain ⟨-, hown, hsource⟩ := hold.resolve_right (by simp [hvalid])
        refine .inl ⟨hvalid', ?_, hsource'.trans hsource⟩
        rw [hregistrant, if_neg hfield, hown]
    · -- another slot is not being written
      left
      rw [(hothers _ hu).1, (hothers _ hu).2, howner]
      refine hold.valid fun call' hcall' field' hfield' => ?_
      rw [honly call' hcall', hstage] at hfield'
      exact hu (RegisterStage.write.inj hfield').1.symm

/-- A write leaves the live registrations alone: none of them has the slot. -/
theorem Tracked.made_written (h : s.Tracked) {field : EntryField}
    (hcall : s.registering = some call)
    (hstage : call.stage = .write tag field)
    (hops : s'.reactor.operations = Function.update s.reactor.operations tag
      (call.write (s.reactor.operations tag) field))
    (hregistrant : s'.registrant =
      if field = .valid then Function.update s.registrant tag call.id else s.registrant)
    {u : HandlerTag} (hid : (s.registrations id).tag = some u)
    (hderegistered : (s.registrations id).deregistered = false) :
    (s'.reactor.operations u).valid = true ∧ s'.registrant u = id := by
  -- a call does not write the entry of a registration that is still made
  have hu : u ≠ tag := by
    rintro rfl
    exact h.slot_ne hcall hid hderegistered (by rw [hstage]; rfl)
  rw [hops, hregistrant, Function.update_of_ne hu]
  obtain ⟨hvalid, hown⟩ := h.made id u hid hderegistered
  refine ⟨hvalid, ?_⟩
  split
  · rw [Function.update_of_ne hu]
    exact hown
  · exact hown

/-- A write that is not the last keeps the invariant. -/
theorem Tracked.write_next (h : s.Tracked) {field next : EntryField}
    (hcall : s.registering = some call) (hstage : call.stage = .write tag field)
    (hreported : field = .valid →
      ∀ report ∈ s.batch, report.event.tag = tag → report.registration = call.id)
    (hnext : field.next = some next)
    (hops : s'.reactor.operations = Function.update s.reactor.operations tag
      (call.write (s.reactor.operations tag) field))
    (hregistrant : s'.registrant =
      if field = .valid then Function.update s.registrant tag call.id else s.registrant)
    (hregistering : s'.registering = some { call with stage := .write tag next })
    (hbatch : s'.batch = s.batch)
    (hinterest : s'.reactor.kernel.interest = s.reactor.kernel.interest)
    (howner : s'.interestOwner = s.interestOwner) (hnextId : s'.nextId = s.nextId)
    (hregistrations : s'.registrations = s.registrations) : s'.Tracked := by
  obtain ⟨hown, howned⟩ := h.written hcall hstage hreported hops hregistrant hbatch hinterest howner
    fun _ => ⟨_, hregistering, ⟨next, rfl⟩, rfl, rfl⟩
  refine ⟨hown, howned, ?_, ?_, ?_, ?_⟩
  · intro id u hid hderegistered
    rw [hregistrations] at hid hderegistered
    exact h.made_written hcall hstage hops hregistrant hid hderegistered
  · intro call' hcall' u hu
    obtain rfl := Option.some.inj (hregistering.symm.trans hcall')
    obtain rfl : tag = u := Option.some.inj hu
    -- the entry stays claimed by the call with one more member written
    have hclaimed := h.claimed call hcall tag (by rw [hstage]; rfl)
    exact hclaimed.next hstage hnext (by rw [hops, Function.update_self]) hregistrant
  · intro call' hcall'
    obtain rfl := Option.some.inj (hregistering.symm.trans hcall')
    rw [hnextId, hregistrations]
    exact h.calling call hcall
  · rw [hnextId, hregistrations]
    exact h.fresh

/-- With the last write the registration is made. -/
theorem Tracked.write_last (h : s.Tracked) (hcall : s.registering = some call)
    (hstage : call.stage = .write tag .handlerPosted)
    (hops : s'.reactor.operations = Function.update s.reactor.operations tag
      (call.write (s.reactor.operations tag) .handlerPosted))
    (hregistrant : s'.registrant = s.registrant) (hregistering : s'.registering = none)
    (hbatch : s'.batch = s.batch)
    (hinterest : s'.reactor.kernel.interest = s.reactor.kernel.interest)
    (howner : s'.interestOwner = s.interestOwner) (hnextId : s'.nextId = s.nextId)
    (hregistrations : s'.registrations = Function.update s.registrations call.id
      { tag := some tag, ioSource := call.ioSource }) : s'.Tracked := by
  obtain ⟨hvalid, hown⟩ : (s.reactor.operations tag).valid = true ∧
      s.registrant tag = call.id := by
    have hclaimed := h.claimed call hcall tag (by rw [hstage]; rfl)
    rwa [Claimed, hstage] at hclaimed
  have hcalling := h.calling call hcall
  obtain ⟨hreported, howned⟩ := h.written hcall hstage (fun hf => by cases hf) hops hregistrant
    hbatch hinterest howner fun hfalse => by simp [RegisterCall.write, hvalid] at hfalse
  refine ⟨hreported, howned, ?_, ?_, ?_, ?_⟩
  · intro id u hid hderegistered
    rw [hregistrations] at hid hderegistered
    -- the registration that is being made is the only new one
    by_cases hne : id = call.id
    · subst hne
      rw [Function.update_self] at hid
      obtain rfl : tag = u := Option.some.inj hid
      rw [hops, Function.update_self, hregistrant]
      exact ⟨hvalid, hown⟩
    · rw [Function.update_of_ne hne] at hid hderegistered
      exact h.made_written hcall hstage hops hregistrant hid hderegistered
  · rw [hregistering]
    intro call' hcall'
    cases hcall'
  · rw [hregistering]
    intro call' hcall'
    cases hcall'
  · intro id hid
    rw [hnextId] at hid
    rw [hregistrations, Function.update_of_ne (Nat.ne_of_gt (lt_of_lt_of_le hcalling.1 hid))]
    exact h.fresh id hid

/-- The interest that `RegisterImpl()` adds belongs to the call. -/
theorem Tracked.add (h : s.Tracked) (hcall : s.registering = some call)
    (hstage : ∀ tag field, call.stage ≠ .write tag field)
    (hfree : (s.reactor.operations tag).valid = false) {mask : BitVec 32} {resources : Bool}
    {kernel : Kernel}
    (hadd : s.reactor.kernel.epollAdd call.ioSource ⟨mask, tag⟩ resources = .ok kernel)
    {fd : NativeHandle} {event : EpollEvent} (hevent : kernel.interest fd = some event) :
    ({ s with registering := some { call with stage := .write tag .ioSource } }.setInterest
      { s.reactor with kernel } call.id).Owned fd event.tag := by
  have hnone : s.reactor.kernel.interest call.ioSource = none := by
    unfold Kernel.epollAdd at hadd
    split_ifs at hadd with _ hsome
    simpa using hsome
  rw [Kernel.eq_of_epollAdd hadd] at hevent ⊢
  simp only [Owned, setInterest] at hevent ⊢
  by_cases hfd : fd = call.ioSource
  · subst hfd
    rw [Function.update_self] at hevent ⊢
    obtain rfl := Option.some.inj hevent
    rw [hnone, if_neg (Option.some_ne_none _)]
    exact .inr ⟨hfree, _, rfl, ⟨_, rfl⟩, rfl, rfl⟩
  · -- all other interests are those of valid entries
    rw [Function.update_of_ne hfd] at hevent ⊢
    rw [if_pos rfl]
    left
    refine (h.interest fd event hevent).valid fun call' hcall' field hfield => ?_
    obtain rfl : call = call' := Option.some.inj (hcall.symm.trans hcall')
    exact hstage _ field hfield

/-- What `RegisterImpl()` does next keeps the invariant. -/
theorem Tracked.registerStep (h : s.Tracked) (hcall : s.registering = some call)
    (resources : Bool) (hC : s.SlotUnreported (.registerStep resources)) :
    (s.registerStep call resources).Tracked := by
  have hcalling := h.calling call hcall
  -- before the writes begin all interests are those of valid entries
  have howned (hstage : ∀ tag field, call.stage ≠ .write tag field) (fd event)
      (hevent : s.reactor.kernel.interest fd = some event) :
      (s.reactor.operations event.tag).valid = true ∧
        s.registrant event.tag = s.interestOwner fd ∧
        (s.reactor.operations event.tag).ioSource = fd := by
    refine (h.interest fd event hevent).valid fun call' hcall' field hfield => ?_
    obtain rfl : call = call' := Option.some.inj (hcall.symm.trans hcall')
    exact hstage _ field hfield
  have hends {s' : State} (hstage : ∀ tag field, call.stage ≠ .write tag field)
      (hs' : s' = { s with registering := none }) : s'.Tracked := by
    subst hs'
    exact h.advance rfl (fun fd event hevent => .inl (howned hstage fd event hevent)) rfl rfl rfl
      le_rfl rfl (fun _ h => by cases h) fun _ h => by cases h
  unfold State.registerStep
  split
  · rename_i it its position last hstage
    have hstage' : ∀ tag field, call.stage ≠ .write tag field := by simp [hstage]
    split
    · exact hends hstage' rfl
    · rename_i position' last' hvisit
      refine h.advance rfl (fun fd event hevent => .inl (howned hstage' fd event hevent)) rfl rfl
        rfl le_rfl rfl ?_ ?_
      · intro call' hcall' tag htag
        obtain rfl := Option.some.inj hcall'
        rcases visitEntry_ok hvisit htag with hfound | ⟨rfl, hvalid, -⟩
        · have hold := h.claimed call hcall tag (by rw [hstage]; exact hfound)
          rw [Claimed, hstage] at hold
          exact hold
        · exact hvalid
      · intro call' hcall'
        obtain rfl := Option.some.inj hcall'
        exact hcalling
  · rename_i position last hstage
    have hstage' : ∀ tag field, call.stage ≠ .write tag field := by simp [hstage]
    -- the end of the used entries does not matter
    obtain ⟨used, hused⟩ := s.reactor.exists_usedOperationsEnd last
    simp only [hused]
    cases position with
    | none =>
      exact h.advance rfl (fun fd event hevent => .inl (howned hstage' fd event hevent)) rfl rfl
        rfl le_rfl rfl (fun _ h => by cases h) fun _ h => by cases h
    | some found =>
      refine h.advance rfl (fun fd event hevent => .inl (howned hstage' fd event hevent)) rfl rfl
        rfl le_rfl rfl ?_ ?_
      · intro call' hcall' tag htag
        obtain rfl := Option.some.inj hcall'
        have hold := h.claimed call hcall tag (by rw [hstage]; exact htag)
        rw [Claimed, hstage] at hold
        exact hold
      · intro call' hcall'
        obtain rfl := Option.some.inj hcall'
        exact hcalling
  · rename_i tag hstage
    have hstage' : ∀ tag field, call.stage ≠ .write tag field := by simp [hstage]
    have hfree := h.claimed call hcall tag (by rw [hstage]; rfl)
    rw [Claimed, hstage] at hfree
    have hclaimed (call' : RegisterCall)
        (hcall' : some { call with stage := .write tag .ioSource } = some call')
        (u) (hu : call'.stage.slot = some u) : s.Claimed call' u := by
      obtain rfl := Option.some.inj hcall'
      obtain rfl : tag = u := Option.some.inj hu
      exact hfree
    have hnamed (call' : RegisterCall)
        (hcall' : some { call with stage := .write tag .ioSource } = some call') :
        call'.id < s.nextId ∧ (s.registrations call'.id).tag = none := by
      obtain rfl := Option.some.inj hcall'
      exact hcalling
    split
    · split
      · exact hends hstage' rfl
      · rename_i kernel hadd
        refine h.advance rfl (fun fd event hevent => ?_) rfl rfl rfl le_rfl rfl hclaimed hnamed
        exact h.add hcall hstage' hfree hadd hevent
    · exact h.advance rfl (fun fd event hevent => .inl (howned hstage' fd event hevent)) rfl rfl
        rfl le_rfl rfl hclaimed hnamed
  · rename_i tag field hstage
    have hreported : field = .valid →
        ∀ report ∈ s.batch, report.event.tag = tag → report.registration = call.id := by
      rintro rfl report hreport rfl
      exact hC call hcall report hreport hstage
    cases hnext : field.next with
    | some next =>
      exact h.write_next hcall hstage hreported hnext rfl rfl rfl rfl rfl rfl rfl rfl
    | none =>
      obtain rfl : field = .handlerPosted := by cases field <;> simp_all [EntryField.next]
      exact h.write_last hcall hstage rfl rfl rfl rfl rfl rfl rfl rfl

/-- The invariant holds of a reactor that has just been built. -/
theorem Tracked.init (size : ℕ) : Tracked { reactor := { size } } where
  batch report hreport := by cases hreport
  interest fd event hevent := by cases hevent
  made id tag hid := by cases hid
  claimed call hcall := by cases hcall
  calling call hcall := by cases hcall
  fresh id hid := rfl

/-- Every step that meets the condition keeps the invariant. -/
theorem Tracked.step {a : Action} (h : s.Tracked) (hC : s.SlotUnreported a)
    (hs' : s.step a = some s') : s'.Tracked := by
  cases a with
  | openFd fd =>
    obtain rfl := Option.some.inj hs'
    exact h.frame ⟨fun _ => rfl, fun _ => rfl, fun _ _ h => h⟩ rfl rfl (fun _ h => h) rfl rfl
      fun _ => ⟨rfl, rfl⟩
  | closeFd fd =>
    obtain rfl := Option.some.inj hs'
    exact h.frame ⟨fun _ => rfl, fun _ => rfl, fun _ _ h => EpollReactor.interest_of_closeFd h⟩
      rfl rfl (fun _ h => h) rfl rfl fun _ => ⟨rfl, rfl⟩
  | abandon =>
    obtain rfl := Option.some.inj hs'
    exact h.frame ⟨fun _ => rfl, fun _ => rfl, fun _ _ h => h⟩ rfl rfl (fun _ h => by cases h) rfl
      rfl fun _ => ⟨rfl, rfl⟩
  | wait reports =>
    obtain ⟨-, hs'⟩ := Option.ite_none_right_eq_some.mp hs'
    obtain rfl := Option.some.inj hs'
    exact h.wait reports
  | register fd events =>
    obtain ⟨hnone, hs'⟩ := Option.ite_none_right_eq_some.mp hs'
    obtain rfl := Option.some.inj hs'
    have hregistering := Option.isNone_iff_eq_none.mp hnone
    -- no call is being made, so every interest is that of a registration
    refine h.advance rfl (fun fd event hevent => .inl ?_) rfl rfl rfl (Nat.le_succ _) rfl ?_ ?_
    · refine (h.interest fd event hevent).valid fun call hcall => ?_
      simp [hregistering] at hcall
    · intro call hcall tag htag
      obtain rfl := Option.some.inj hcall
      cases htag
    · intro call hcall
      obtain rfl := Option.some.inj hcall
      exact ⟨Nat.lt_succ_self _, h.fresh _ le_rfl⟩
  | registerStep resources =>
    obtain ⟨call, hcall, rfl⟩ := Option.map_eq_some_iff.mp hs'
    exact h.registerStep hcall resources hC
  | deregister id closeOnDeregister =>
    obtain ⟨tag, htag, hderegistered, rfl⟩ := step_deregister hs'
    exact h.deregister htag hderegistered closeOnDeregister
  | start tag opType resources =>
    obtain ⟨hvalid, hs'⟩ := Option.ite_none_right_eq_some.mp hs'
    obtain rfl := Option.some.inj hs'
    exact h.start hvalid opType resources
  | ignore tag ev | consume tag ev =>
    obtain rfl := Option.some.inj hs'
    exact h.frame (EpollReactor.keeps_setEntry rfl rfl rfl fun _ _ h => h) rfl rfl (fun _ h => h)
      rfl rfl fun _ => ⟨rfl, rfl⟩
  | handleEvent => exact h.handleEvent hs'
  | begin tag =>
    obtain ⟨-, hs'⟩ := Option.ite_none_right_eq_some.mp hs'
    obtain rfl := Option.some.inj hs'
    exact h.beginOperation
  | finish tag handler =>
    obtain ⟨-, hs'⟩ := Option.ite_none_right_eq_some.mp hs'
    obtain rfl := Option.some.inj hs'
    exact h.finishOperation

end State

open State in
/-- No stale event crosses a registration. Take any run in which `RegisterImpl()` never makes an
entry valid while the batch holds an event that was reported for an earlier registration of the
entry. In every state reached the next event of the batch, if it was reported for another
registration than the one its entry is valid for, changes neither the captured events of the entry
nor the queued operations. -/
theorem no_stale_event {s : State} (hs : machine.ReachableIn SlotUnreported s) : s.NoStaleEvent :=
  (hs.invariant (I := Tracked) (fun _ ⟨size, hs⟩ => hs ▸ Tracked.init size)
    fun _ _ _ h hC hs' => h.step hC hs').noStaleEvent

open State in
/-- An entry is deregistered while an event of it waits in the batch. The event is handled before
the slot is made valid again, and the next event is one of the new registration. -/
theorem no_stale_event_slot_reused :
    ∃ s, machine.ReachableIn SlotUnreported s ∧ s.batch = [⟨⟨EPOLLIN, 0⟩, 1⟩] ∧
      (s.registrations 0).tag = some 0 ∧ (s.registrations 1).tag = some 0 ∧ s.NoStaleEvent := by
  have hs := ToMathlib.Machine.reachableIn_get_run (M := machine) (C := SlotUnreported)
    (s := { reactor := { size := 1 } })
    (l := List.flatten [[.openFd 5, .openFd 6, .register 5 { eventMask := EPOLLIN ||| EPOLLET }],
      List.replicate 9 (.registerStep true),
      [.wait [(5, EPOLLIN)], .deregister 0 true,
        .register 6 { eventMask := EPOLLIN ||| EPOLLET }],
      List.replicate 5 (.registerStep true), [.handleEvent],
      List.replicate 4 (.registerStep true), [.wait [(6, EPOLLIN)]]]) ⟨1, rfl⟩ (by decide)
  exact ⟨_, hs, by decide, by decide, by decide, no_stale_event hs⟩

open State in
/-- The slot of a deregistered entry is registered for another descriptor while an event of the
first one waits in the batch. The event is taken for one of the new registration, and its operation
is queued. -/
theorem no_stale_event_next_registration :
    ∃ s, machine.Reachable s ∧ s.batch = [⟨⟨EPOLLIN, 0⟩, 0⟩] ∧ s.registrant 0 = 1 ∧
      ¬ s.NoStaleEvent := by
  have hs := ToMathlib.Machine.reachableIn_get_run (M := machine)
    (C := ToMathlib.Machine.Always) (s := { reactor := { size := 1 } })
    (l := List.flatten [[.openFd 5, .openFd 6, .register 5 { eventMask := EPOLLIN ||| EPOLLET }],
      List.replicate 9 (.registerStep true),
      [.wait [(5, EPOLLIN)], .deregister 0 true,
        .register 6 { eventMask := EPOLLIN ||| EPOLLET }],
      List.replicate 9 (.registerStep true)]) ⟨1, rfl⟩ (by decide)
  refine ⟨_, hs, by decide, by decide, fun hok => ?_⟩
  have hunchanged := (hok ⟨⟨EPOLLIN, 0⟩, 0⟩ (by decide) _ (Option.some_get (by decide)).symm
    (by decide) (by decide)).2
  exact absurd hunchanged (by decide)

end LifeCycle

end Asrt.Reactor
