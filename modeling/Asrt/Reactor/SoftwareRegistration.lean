import Asrt.Reactor.TriggerInvariant

/-!
# Registering a software event

Every step of `RegisterImpl()` that takes an unused entry keeps the invariant of software events.
The entry is not valid and has no operation until the call has written its handler, so nothing that
another thread does in between concerns it.
-/

namespace Asrt.Reactor.Software

open LifeCycle (RegistrationId RegisterCall RegisterStage EntryField visitEntry)

namespace State

variable {s s' : State} {id : RegistrationId} {tag : HandlerTag} {op : SoftwareOperation}

/-- A new registration has no history. -/
theorem Inv.register (h : s.Inv) (isOneshot : Bool) (its : List ℕ) :
    ({ s with
      registering := some {
        id := s.nextId
        ioSource := kInvalidNativeHandle
        events := if isOneshot then .oneShotSoftwareEvent else .persistentSoftwareEvent
        stage := .visit its none none }
      nextId := s.nextId + 1 : State }.setRegistration s.nextId { isOneshot }).Inv := by
  -- the name of the registration is new: it has no slot, no trigger and no invocation
  have hfresh := h.named s.nextId le_rfl
  have hquiet := h.quiet (show (s.registrations s.nextId).returned = false by rw [hfresh])
  refine ⟨?_, h.invocations, ?_, ?_, ?_, ?_, ?_, ?_⟩
  · refine h.toTableOk.congr (fun _ => .refl _) ?_ rfl (.refl _) rfl
    intro id tag hslot
    have hne : id ≠ s.nextId := by
      rintro rfl
      rw [hfresh] at hslot
      cases hslot
    rw [setRegistration_of_ne hne]
    exact .refl _
  · intro id
    by_cases hid : id = s.nextId
    · subst hid
      rw [setRegistration_self]
      show s.invoked _ + s.pending _ = 0
      omega
    · rw [setRegistration_of_ne hid]
      exact h.count id
  · intro id hone
    by_cases hid : id = s.nextId
    · subst hid
      show s.invoked _ ≤ 1
      omega
    · rw [setRegistration_of_ne hid] at hone
      exact h.oneshot id hone
  · intro id howed
    by_cases hid : id = s.nextId
    · subst hid
      rw [Owed, expected, setRegistration_self] at howed
      simp at howed
    · rw [Owed, expected, setRegistration_of_ne hid] at howed
      exact (h.owed id howed).congr (fun _ _ => ⟨rfl, rfl, rfl⟩)
        (by rw [setRegistration_of_ne hid])
  · intro id hid
    have hlt : s.nextId < id := hid
    rw [setRegistration_of_ne hlt.ne']
    exact h.named id hlt.le
  · intro id hid
    by_cases heq : id = s.nextId
    · subst heq
      rw [setRegistration_self]
    · rw [setRegistration_of_ne heq] at hid ⊢
      exact h.silent id hid
  · intro call hcall
    obtain rfl := Option.some.inj hcall
    refine ⟨Nat.lt_succ_self _, by rw [setRegistration_self], ?_, ?_⟩
    · rw [setRegistration_self]
      cases isOneshot <;> rfl
    · refine ⟨by rw [setRegistration_self], by rw [setRegistration_self], ?_⟩
      exact fun tag htag => absurd htag (Option.not_mem_none tag)

/-- A call that ends without a registration, or that moves on without a write. -/
theorem Inv.search (h : s.Inv) (usedOperationsEnd : ℕ) {registering : Option RegisterCall}
    (hcall : ∀ call, registering = some call → s.CallOk call) :
    { s with reactor := { s.reactor with usedOperationsEnd }, registering : State }.Inv := by
  refine h.frame ?_ (fun _ => .refl _) rfl rfl rfl (fun _ => rfl) ?_
  · exact h.toTableOk.congr (fun _ => .refl _) (fun _ _ _ => .refl _) rfl (.refl _) rfl
  · exact fun call hc => (hcall call hc).frame (fun _ => .refl _) rfl rfl rfl

/-- A write to an entry that is not valid, and of which no operation is executing. -/
theorem TableOk.update_free (h : s.TableOk) (hfree : (s.entry tag).valid = false)
    (hidle : ∀ op ∈ s.executing, op.tag ≠ tag) (hentry : s'.EntryOk tag)
    (hother : ∀ u, u ≠ tag → s'.entry u = s.entry u)
    (hholder : ∀ id u, (s.registrations id).slot = some u →
      SameHolder (s.registrations id) (s'.registrations id))
    (hinvocations : s'.invocations = s.invocations) (hopQueue : s'.opQueue = s.opQueue)
    (hqueued : s'.queued = s.queued) (hexecuting : s'.executing = s.executing) : s'.TableOk := by
  have hinvoked (id : RegistrationId) : s'.invoked id = s.invoked id := by
    rw [invoked, invoked, hinvocations]
  have hsame (u : HandlerTag) (hu : u ≠ tag) : SameEntry (s.entry u) (s'.entry u) := by
    rw [hother u hu]
    exact .refl _
  -- posted operations have valid entries
  have hunposted (op : SoftwareOperation) (hop : op ∈ s.opQueue ++ s.queued) : op.tag ≠ tag := by
    rintro rfl
    exact Bool.noConfusion ((h.queue op hop).valid.symm.trans hfree)
  refine ⟨?_, ?_, ?_, ?_⟩
  · intro u
    by_cases hu : u = tag
    · exact hu ▸ hentry
    · exact (h.entry u).congr (hsame u hu) (fun id => hholder id u) (fun id _ => hinvoked id)
        fun op hop _ => hexecuting ▸ hop
  · intro op hop
    rw [hopQueue, hqueued] at hop
    exact (h.queue op hop).congr (hsame _ (hunposted op hop)).toSameHandler (hinvoked _)
  · intro op hop
    rw [hexecuting] at hop
    have hold := h.executing op hop
    exact hold.congr (hsame _ (hidle op hop)).toSameHandler (hholder _ _ hold.slot).toSameSlot
      (hinvoked _).ge
  · intro u hflag
    rw [hopQueue, hqueued, hexecuting]
    by_cases hu : u = tag
    · subst hu
      have hzero : s.IsIdle u := by
        intro op hop
        obtain hop | hop := List.mem_append.mp hop
        · exact hunposted op hop
        · exact hidle op hop
      rw [hzero.countP_eq_zero]
      exact Nat.zero_le 1
    · rw [hother u hu] at hflag
      exact h.single u hflag

/-- The entry that is found is given to the registration. -/
theorem Inv.add {call : RegisterCall} (h : s.Inv) (hcall : s.registering = some call)
    (hstage : call.stage = .add tag) (hunused : s.TakesUnused call) :
    (s.registerStep call).Inv := by
  have hcallOk := h.call call hcall
  have hstageOk := hcallOk.stage
  rw [StageOk, hstage] at hstageOk
  rw [TakesUnused, hstage] at hunused
  obtain ⟨hslot, hfresh, hfree⟩ := hstageOk
  obtain ⟨hidle, hflag⟩ := hunused
  -- the registrations that have an entry are other ones
  have hne (id : RegistrationId) (u : HandlerTag) (hid : (s.registrations id).slot = some u) :
      id ≠ call.id := by
    rintro rfl
    exact absurd (hid.symm.trans hslot) (Option.some_ne_none u)
  have hhistory (id : RegistrationId) : (s.registerStep call).registrations id =
      if id = call.id then { s.registrations id with slot := some tag }
      else s.registrations id := by
    simp only [registerStep, hstage]
    by_cases hid : id = call.id
    · subst hid
      simp
    · rw [setRegistration_of_ne hid, if_neg hid]
  have hentry : (s.registerStep call).entry tag = { s.entry tag with
      isSoftwareEventOneshot := (s.entry tag).isSoftwareEventOneshot ||
        decide (call.events.softwareEvent = SoftwareEventType.oneshot) } := by
    simp [registerStep, hstage, setRegistration, entry]
  have hother (u : HandlerTag) (hu : u ≠ tag) : (s.registerStep call).entry u = s.entry u := by
    simp [registerStep, hstage, setRegistration, entry, Function.update_of_ne hu]
  have hrest : (s.registerStep call).opQueue = s.opQueue ∧
      (s.registerStep call).queued = s.queued ∧ (s.registerStep call).executing = s.executing ∧
      (s.registerStep call).invocations = s.invocations ∧
      (s.registerStep call).nextId = s.nextId ∧
      (∀ id, (s.registerStep call).pending id = s.pending id) ∧
      (s.registerStep call).registering = some { call with stage := .write tag .ioSource } := by
    simp only [registerStep, hstage]
    exact ⟨rfl, rfl, rfl, rfl, rfl, fun _ => rfl, rfl⟩
  obtain ⟨hopQueue, hqueued, hexecuting, hinvocations, hnext, hpending, hregistering⟩ := hrest
  refine h.accounts (h.toTableOk.update_free hfree hidle ?_ hother ?_ hinvocations hopQueue hqueued
    hexecuting) hinvocations hpending ?_ ?_ ?_ ?_ ?_
  · refine ⟨fun hvalid => ?_, fun hprogress => ?_, fun hrelease => ?_⟩
    · rw [hentry] at hvalid
      exact Bool.noConfusion (hvalid.symm.trans hfree)
    · rw [hentry] at hprogress
      rw [hexecuting]
      exact (h.entry tag).inProgress hprogress
    · rw [hentry] at hrelease ⊢
      rw [hexecuting]
      exact (h.entry tag).release hrelease
  · intro id u hid
    rw [hhistory, if_neg (hne id u hid)]
    exact .refl _
  · intro id
    rw [hhistory]
    split
    · exact ⟨rfl, rfl⟩
    · exact ⟨rfl, rfl⟩
  · intro id howed
    obtain ⟨u, hu, hvalid, hhandler⟩ := h.owed id howed
    have hutag : u ≠ tag := by
      rintro rfl
      exact Bool.noConfusion (hvalid.symm.trans hfree)
    rw [IsRegistered, hhistory, if_neg (hne id u hu)]
    exact ⟨u, hu, by rwa [hother u hutag], by rwa [hother u hutag]⟩
  · intro id hid
    rw [hnext] at hid
    rw [hhistory, if_neg (lt_of_lt_of_le hcallOk.named hid).ne']
    exact h.named id hid
  · intro id hid
    rw [hhistory] at hid
    split at hid
    · exact hid
    · exact hid
  · intro call' hcall'
    rw [hregistering] at hcall'
    obtain rfl := Option.some.inj hcall'
    refine ⟨?_, ?_, ?_, ?_, ?_, ?_, ?_⟩
    · rw [hnext]
      exact hcallOk.named
    · rw [hhistory, if_pos rfl]
      exact hcallOk.returned
    · rw [hhistory, if_pos rfl]
      exact hcallOk.isOneshot
    · rw [hhistory, if_pos rfl]
    · rw [hexecuting]
      exact hidle
    · rw [hhistory, if_pos rfl, hentry]
      show (s.registrations call.id).isOneshot = _
      rw [hcallOk.isOneshot]
      -- `RegisterImpl()` sets the flag of one-shot events but never clears it
      by_cases hevents : call.events.softwareEvent = SoftwareEventType.oneshot
      · simp [hevents]
      · simp [hevents, hflag hevents]
    · refine ⟨?_, ?_⟩
      · rw [hentry]
        exact hfree
      · rw [hhistory, if_pos rfl]
        exact hfresh

/-- A write of `RegisterImpl()` that is not the last one. -/
theorem Inv.write {call : RegisterCall} {field next : EntryField}
    {e : OperationEntry RegistrationId} (h : s.Inv) (hcall : s.registering = some call)
    (hstage : call.stage = .write tag field)
    (hs' : s' = { s with
      reactor := s.reactor.setEntry tag e
      registering := some { call with stage := .write tag next } })
    (htable : s'.TableOk) (howed : ∀ id, s.Owed id → s'.IsRegistered id)
    (hflag : e.isSoftwareEventOneshot = (s.entry tag).isSoftwareEventOneshot)
    (hwritten : s'.Written call.id tag next) : s'.Inv := by
  have hcallOk := h.call call hcall
  have hstageOk := hcallOk.stage
  rw [StageOk, hstage] at hstageOk
  obtain ⟨hslot, hidle, honeshot, -⟩ := hstageOk
  subst hs'
  refine h.accounts htable rfl (fun _ => rfl) (fun _ => ⟨rfl, rfl⟩) howed h.named
    (fun _ hid => hid) ?_
  intro call' hcall'
  obtain rfl := Option.some.inj hcall'
  refine ⟨hcallOk.named, hcallOk.returned, hcallOk.isOneshot, hslot, hidle, ?_, hwritten⟩
  simpa [entry, hflag] using honeshot

/-- A write of a member that the invariant is not about. -/
theorem Inv.write_same {call : RegisterCall} {field next : EntryField}
    {e : OperationEntry RegistrationId} (h : s.Inv) (hcall : s.registering = some call)
    (hstage : call.stage = .write tag field) (hsame : SameEntry (s.entry tag) e)
    (hwritten : s.Written call.id tag next) :
    { s with
      reactor := s.reactor.setEntry tag e
      registering := some { call with stage := .write tag next } : State }.Inv := by
  have hentry := SameEntry.update s.reactor.operations hsame
  refine h.write hcall hstage rfl ?_ ?_ hsame.isSoftwareEventOneshot ?_
  · exact h.toTableOk.congr hentry (fun _ _ _ => .refl _) rfl (.refl _) rfl
  · exact fun id howed => (h.owed id howed).congr (fun u _ => (hentry u).toSameHandler) rfl
  · have hvalid := (hentry tag).valid
    have hhandler := (hentry tag).handler
    cases next with
    | ioSource | handler => exact ⟨hvalid.trans hwritten.1, hwritten.2⟩
    | valid => exact ⟨hvalid.trans hwritten.1, hwritten.2.1, hhandler.trans hwritten.2.2⟩
    | monitoredEvents | capturedEvents | handlerPosted =>
      exact fun htrue => hhandler.trans (hwritten (hvalid.symm.trans htrue))

/-- A write to an entry that is not valid yet. -/
theorem Inv.write_free {call : RegisterCall} {field next : EntryField}
    {e : OperationEntry RegistrationId} (h : s.Inv) (hcall : s.registering = some call)
    (hstage : call.stage = .write tag field) (hfree : (s.entry tag).valid = false)
    (hs' : s' = { s with
      reactor := s.reactor.setEntry tag e
      registering := some { call with stage := .write tag next } })
    (hflag : e.isSoftwareEventOneshot = (s.entry tag).isSoftwareEventOneshot)
    (hentry : s'.EntryOk tag) (hwritten : s'.Written call.id tag next) : s'.Inv := by
  have hstageOk := (h.call call hcall).stage
  rw [StageOk, hstage] at hstageOk
  obtain ⟨-, hidle, -⟩ := hstageOk
  have hother (u : HandlerTag) (hu : u ≠ tag) : s'.entry u = s.entry u := by
    simp [hs', entry, Function.update_of_ne hu]
  refine h.write hcall hstage hs' ?_ ?_ hflag hwritten
  · subst hs'
    exact h.toTableOk.update_free hfree hidle hentry hother (fun _ _ _ => .refl _) rfl rfl rfl rfl
  · intro id howed
    -- an owed registration is valid, so its entry is not the one that is written
    obtain ⟨u, hu, hvalid, hhandler⟩ := h.owed id howed
    have hutag : u ≠ tag := by
      rintro rfl
      exact Bool.noConfusion (hvalid.symm.trans hfree)
    refine ⟨u, by rw [hs']; exact hu, by rwa [hother u hutag], by rwa [hother u hutag]⟩

/-- The writes of `RegisterImpl()` but the last one. -/
theorem Inv.write_next {call : RegisterCall} {field next : EntryField} (h : s.Inv)
    (hcall : s.registering = some call) (hstage : call.stage = .write tag field)
    (hnext : field.next = some next) :
    { s with
      reactor := s.reactor.setEntry tag (call.write (s.entry tag) field)
      registering := some { call with stage := .write tag next } : State }.Inv := by
  have hcallOk := h.call call hcall
  have hstageOk := hcallOk.stage
  rw [StageOk, hstage] at hstageOk
  obtain ⟨hslot, hidle, honeshot, hwritten⟩ := hstageOk
  have hentry : { s with
      reactor := s.reactor.setEntry tag (call.write (s.entry tag) field)
      registering := some { call with stage := .write tag next } : State }.entry tag =
      call.write (s.entry tag) field :=
    Function.update_self _ _ _
  cases field with
  | ioSource =>
    obtain rfl := Option.some.inj hnext
    exact h.write_same hcall hstage ⟨⟨rfl, rfl, rfl⟩, rfl, rfl⟩ hwritten
  | handler =>
    obtain rfl := Option.some.inj hnext
    refine h.write_free hcall hstage hwritten.1 rfl rfl ⟨?_, ?_, ?_⟩ ?_
    · rw [hentry]
      exact fun hvalid => absurd (hvalid.symm.trans hwritten.1) Bool.noConfusion
    · rw [hentry]
      exact (h.entry tag).inProgress
    · rw [hentry]
      exact (h.entry tag).release
    · rw [Written, hentry]
      exact ⟨hwritten.1, hwritten.2, rfl⟩
  | valid =>
    obtain rfl := Option.some.inj hnext
    obtain ⟨hfree, hlive, hhandler⟩ := hwritten
    refine h.write_free hcall hstage hfree rfl rfl ⟨?_, ?_, ?_⟩ ?_
    · -- the client has not got the tag yet, so nothing was invoked
      rw [hentry]
      refine fun _ => ⟨call.id, hhandler, hslot, hlive, honeshot, fun _ hpos => ?_⟩
      exact absurd (h.quiet hcallOk.returned).1 (Nat.pos_iff_ne_zero.mp hpos)
    · rw [hentry]
      exact (h.entry tag).inProgress
    · -- nothing is left to be released: no operation is executing
      rw [hentry]
      intro hrelease
      obtain ⟨-, op, hop, htag⟩ := (h.entry tag).release hrelease
      exact absurd htag (hidle op hop)
    · rw [Written, hentry]
      exact fun _ => hhandler
  | monitoredEvents =>
    obtain rfl := Option.some.inj hnext
    exact h.write_same hcall hstage ⟨⟨rfl, rfl, rfl⟩, rfl, rfl⟩ hwritten
  | capturedEvents =>
    obtain rfl := Option.some.inj hnext
    exact h.write_same hcall hstage ⟨⟨rfl, rfl, rfl⟩, rfl, rfl⟩ hwritten
  | handlerPosted => cases hnext

/-- The last write of `RegisterImpl()`: the client gets the tag. -/
theorem Inv.write_last {call : RegisterCall} (h : s.Inv) (hcall : s.registering = some call) :
    ({ s with
      reactor := s.reactor.setEntry tag (call.write (s.entry tag) .handlerPosted)
      registering := none : State }.setRegistration call.id
        { s.registrations call.id with returned := true }).Inv := by
  have hcallOk := h.call call hcall
  have hsame : SameEntry (s.entry tag) (call.write (s.entry tag) .handlerPosted) :=
    ⟨⟨rfl, rfl, rfl⟩, rfl, rfl⟩
  have hkept : SameHolder (s.registrations call.id)
      { s.registrations call.id with returned := true } :=
    ⟨⟨rfl, rfl⟩, rfl⟩
  have hentry := SameEntry.update s.reactor.operations hsame
  have hholder := SameHolder.update s.registrations hkept
  refine h.accounts ?_ rfl (fun _ => rfl) ?_ ?_ ?_ ?_ ?_
  · exact h.toTableOk.congr hentry (fun id _ _ => hholder id) rfl (.refl _) rfl
  · intro id
    by_cases hid : id = call.id
    · subst hid
      rw [setRegistration_self]
      exact ⟨rfl, rfl⟩
    · rw [setRegistration_of_ne hid]
      exact ⟨rfl, rfl⟩
  · exact fun id howed => (h.owed id howed).congr (fun u _ => (hentry u).toSameHandler)
      (hholder id).slot
  · intro id hid
    -- the name of the call is in use
    have hne : id ≠ call.id := (lt_of_lt_of_le hcallOk.named hid).ne'
    rw [setRegistration_of_ne hne]
    exact h.named id hid
  · intro id hid
    by_cases heq : id = call.id
    · subst heq
      exact hcallOk.returned
    · rwa [setRegistration_of_ne heq] at hid
  · intro call' hcall'
    cases hcall'

/-- A step of `RegisterImpl()` that meets the condition. -/
theorem Inv.registerStep {call : RegisterCall} (h : s.Inv) (hcall : s.registering = some call)
    (hunused : s.TakesUnused call) : (s.registerStep call).Inv := by
  have hcallOk := h.call call hcall
  have hstageOk := hcallOk.stage
  cases hstage : call.stage with
  | visit its position lastUsedEntry =>
    rw [StageOk, hstage] at hstageOk
    obtain ⟨hslot, hfresh, hposition⟩ := hstageOk
    cases its with
    | nil =>
      -- the end of the search moves the end of the used entries, if at all
      obtain ⟨usedOperationsEnd, hreactor⟩ := s.reactor.exists_usedOperationsEnd lastUsedEntry
      simp only [State.registerStep, hstage, hreactor]
      cases position with
      | none =>
        exact h.search usedOperationsEnd fun _ hnone => absurd hnone.symm (Option.some_ne_none _)
      | some tag =>
        refine h.search usedOperationsEnd fun call' hcall' => ?_
        obtain rfl := Option.some.inj hcall'
        exact ⟨hcallOk.named, hcallOk.returned, hcallOk.isOneshot, hslot, hfresh,
          hposition tag rfl⟩
    | cons it its =>
      simp only [State.registerStep, hstage]
      split
      · exact h.search s.reactor.usedOperationsEnd fun _ hnone =>
          absurd hnone.symm (Option.some_ne_none _)
      · rename_i position' lastUsedEntry' hvisit
        refine h.search s.reactor.usedOperationsEnd fun call' hcall' => ?_
        obtain rfl := Option.some.inj hcall'
        refine ⟨hcallOk.named, hcallOk.returned, hcallOk.isOneshot, hslot, hfresh, ?_⟩
        intro tag htag
        -- the position is the old one or the entry that was visited, which is invalid
        obtain hold | ⟨rfl, hvalid, -⟩ := LifeCycle.visitEntry_ok hvisit htag
        · exact hposition tag hold
        · exact hvalid
  | add tag => exact h.add hcall hstage hunused
  | write tag field =>
    simp only [State.registerStep, hstage]
    split
    · rename_i next hnext
      exact h.write_next hcall hstage hnext
    · rename_i hlast
      cases field with
      | handlerPosted => exact h.write_last hcall
      | ioSource | handler | valid | monitoredEvents | capturedEvents => cases hlast

end State

end Asrt.Reactor.Software
