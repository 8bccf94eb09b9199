import Asrt.Reactor.SoftwareRegistration

/-!
# The accounts of the software events

The accounts of triggers and invocations over whole runs. A trigger is on its way from the check of
`TriggerSoftwareEvent()` to the call of the handler; each step moves it on and none loses it, as
long as the steps are orderly.

## Main results

* `State.Inv.of_reachable`: the accounts are in order in every state that orderly steps reach.
-/

namespace Asrt.Reactor.Software

open LifeCycle (RegistrationId RegisterCall RegisterStage EntryField visitEntry)

namespace State

variable {s s' : State} {id : RegistrationId} {tag : HandlerTag} {op : SoftwareOperation}

/-! ## The clients -/

/-- A successful trigger is pending, and its registration holds the entry. -/
theorem Inv.trigger (h : s.Inv) (hreturned : (s.registrations id).returned = true)
    (hslot : (s.registrations id).slot = some tag)
    (howner : (s.entry tag).valid = true → (s.entry tag).handler = some id) :
    (s.trigger id tag).Inv := by
  unfold State.trigger
  split
  · rename_i hcan
    have hvalid : (s.entry tag).valid = true := (Bool.and_eq_true_iff.mp hcan).1
    have hkept : SameHolder (s.registrations id)
        { s.registrations id with triggered := (s.registrations id).triggered + 1 } :=
      ⟨⟨rfl, rfl⟩, rfl⟩
    have hholder := SameHolder.update s.registrations hkept
    -- the registration of a call that is being made is another one
    have hother (id' : RegistrationId) (hid : (s.registrations id').returned = false) :
        id' ≠ id := by
      rintro rfl
      exact Bool.noConfusion (hid.symm.trans hreturned)
    refine ⟨h.toTableOk.congr (fun _ => .refl _) (fun id' _ _ => hholder id') rfl (.refl _) rfl,
      h.invocations, ?_, ?_, ?_, ?_, ?_, ?_⟩
    · intro id'
      have hcount := h.count id'
      -- one more trigger is counted and one more is pending
      by_cases hid : id' = id
      · subst hid
        rw [setRegistration_self, pending_setRegistration, invoked_setRegistration]
        simp only [pending, invoked, List.countP_append, List.countP_singleton, decide_true,
          ↓reduceIte] at hcount ⊢
        omega
      · rw [setRegistration_of_ne hid, pending_setRegistration, invoked_setRegistration]
        simp only [pending, invoked, List.countP_append, List.countP_singleton, Ne.symm hid,
          decide_false, Bool.false_eq_true, ↓reduceIte] at hcount ⊢
        omega
    · intro id' honeshot
      exact h.oneshot id' ((hholder id').isOneshot.symm.trans honeshot)
    · intro id' howed
      by_cases hid : id' = id
      · subst hid
        exact ⟨tag, by simpa using hslot, hvalid, howner hvalid⟩
      · rw [Owed, expected, setRegistration_of_ne hid] at howed
        exact (h.owed id' howed).congr (fun _ _ => ⟨rfl, rfl, rfl⟩)
          (by rw [setRegistration_of_ne hid])
    · intro id' hid
      have hnamed := h.named id' hid
      rw [setRegistration_of_ne (hother id' (by rw [hnamed]))]
      exact hnamed
    · intro id' hid
      have hne : id' ≠ id := by
        rintro rfl
        simp [hreturned] at hid
      rw [setRegistration_of_ne hne] at hid ⊢
      exact h.silent id' hid
    · intro call hcall
      have hcallOk := h.call call hcall
      refine hcallOk.congr (fun u hu => ⟨hu, rfl⟩) (fun _ _ _ => rfl) (fun _ => rfl)
        (fun op hop => .inl hop) (hholder call.id).toSameSlot ?_
        (fun _ => (hholder call.id).deregistered) le_rfl
      rw [setRegistration_of_ne (hother _ hcallOk.returned)]
  · exact h

/-- A deregistration changes its own entry. -/
theorem entry_deregister_of_ne {u : HandlerTag} (hvalid : (s.entry tag).valid = true)
    (hhandler : (s.entry tag).handler = some id) (hu : u ≠ tag) :
    (s.deregister tag).entry u = s.entry u := by
  rw [deregister_of_valid hvalid hhandler]
  simp [setRegistration, entry, Function.update_of_ne hu]

/-- The entry after a deregistration. -/
theorem entry_deregister (hvalid : (s.entry tag).valid = true)
    (hhandler : (s.entry tag).handler = some id) :
    (s.deregister tag).entry tag = { s.entry tag with
      handler := if (s.entry tag).executionInProgress then some id else none
      releaseHandlerMemory :=
        (s.entry tag).releaseHandlerMemory || (s.entry tag).executionInProgress
      valid := false } := by
  rw [deregister_of_valid hvalid hhandler]
  simp [setRegistration, entry]

/-- A deregistration does not set or reset the flag of an entry. -/
theorem flag_deregister (hvalid : (s.entry tag).valid = true)
    (hhandler : (s.entry tag).handler = some id) (u : HandlerTag) :
    ((s.deregister tag).entry u).isSoftwareEventOneshot =
      (s.entry u).isSoftwareEventOneshot := by
  by_cases hu : u = tag
  · subst hu
    rw [entry_deregister hvalid hhandler]
  · rw [entry_deregister_of_ne hvalid hhandler hu]

/-- A deregistration changes the history of its registration only in that respect. -/
theorem registrations_deregister (hvalid : (s.entry tag).valid = true)
    (hhandler : (s.entry tag).handler = some id) (id' : RegistrationId) :
    (s.deregister tag).registrations id' = { s.registrations id' with
      deregistered := if id' = id then true else (s.registrations id').deregistered } := by
  rw [deregister_of_valid hvalid hhandler]
  by_cases hid : id' = id
  · subst hid
    simp
  · rw [setRegistration_of_ne hid, if_neg hid]

/-- A deregistration when no trigger is owed keeps the table. -/
theorem Inv.tableOk_deregister (h : s.Inv) (hvalid : (s.entry tag).valid = true)
    (hhandler : (s.entry tag).handler = some id) (howed : ¬ s.Owed id) :
    (s.deregister tag).TableOk := by
  have hslot : (s.registrations id).slot = some tag := by
    obtain ⟨id', hid', hslot, -⟩ := (h.entry tag).valid hvalid
    exact Option.some.inj (hid'.symm.trans hhandler) ▸ hslot
  have hregistrations := registrations_deregister hvalid hhandler
  have hlists : (s.deregister tag).opQueue = s.opQueue ∧ (s.deregister tag).queued = s.queued ∧
      (s.deregister tag).executing = s.executing ∧
      ∀ id', (s.deregister tag).invoked id' = s.invoked id' := by
    obtain ⟨reactor, registrations, heq⟩ := deregister_eq s tag
    rw [heq]
    exact ⟨rfl, rfl, rfl, fun _ => rfl⟩
  obtain ⟨hopQueue, hqueued, hexecuting, hinvoked⟩ := hlists
  refine ⟨?_, ?_, ?_, ?_⟩
  · intro u
    by_cases hu : u = tag
    · subst hu
      refine ⟨fun hfalse => ?_, fun hprogress => ?_, fun hrelease => ?_⟩
      · rw [entry_deregister hvalid hhandler] at hfalse
        exact Bool.noConfusion hfalse
      · rw [entry_deregister hvalid hhandler] at hprogress
        rw [hexecuting]
        exact (h.entry u).inProgress hprogress
      · rw [entry_deregister hvalid hhandler] at hrelease ⊢
        rw [hexecuting]
        refine ⟨rfl, ?_⟩
        -- a release is left to the operation that is executing
        obtain hold | hprogress := Bool.or_eq_true_iff.mp hrelease
        · exact ((h.entry u).release hold).2
        · exact (h.entry u).inProgress hprogress
    · have hentry : SameEntry (s.entry u) ((s.deregister tag).entry u) := by
        rw [entry_deregister_of_ne hvalid hhandler hu]
        exact .refl _
      refine (h.entry u).congr hentry ?_ (fun id' _ => hinvoked id') fun op hop _ =>
        hexecuting ▸ hop
      intro id' hid'
      have hne : id' ≠ id := by
        rintro rfl
        exact hu (Option.some.inj (hid'.symm.trans hslot))
      rw [hregistrations, if_neg hne]
      exact .refl _
  · intro op hop
    rw [hopQueue, hqueued] at hop
    have hold := h.queue op hop
    -- an operation of the slot in the queue would be owed to this registration
    have hne : op.tag ≠ tag := by
      rintro rfl
      have heq : op.registration = id := Option.some.inj (hold.handler.symm.trans hhandler)
      exact howed (heq ▸ h.owed_of_mem hop)
    refine hold.congr ?_ (hinvoked _)
    rw [entry_deregister_of_ne hvalid hhandler hne]
    exact ⟨rfl, rfl, rfl⟩
  · intro op hop
    rw [hexecuting] at hop
    obtain ⟨hopslot, hpos, honeshot, hkeeps⟩ := h.executing op hop
    refine ⟨by rwa [hregistrations], by rwa [hinvoked], ?_, ?_⟩
    · rw [hregistrations, flag_deregister hvalid hhandler]
      exact honeshot
    · intro hvalid'
      by_cases hu : op.tag = tag
      · subst hu
        rw [entry_deregister hvalid hhandler] at hvalid'
        exact Bool.noConfusion hvalid'
      · rw [entry_deregister_of_ne hvalid hhandler hu] at hvalid' ⊢
        exact hkeeps hvalid'
  · intro u hflag
    rw [flag_deregister hvalid hhandler] at hflag
    rw [hopQueue, hqueued, hexecuting]
    exact h.single u hflag

/-- A deregistration when no trigger is owed keeps the invariant. -/
theorem Inv.deregister (h : s.Inv)
    (howed : (s.entry tag).valid = true → ∀ id ∈ (s.entry tag).handler, ¬ s.Owed id) :
    (s.deregister tag).Inv := by
  cases hvalid : (s.entry tag).valid with
  | false =>
    rw [deregister_of_not_valid hvalid]
    exact h
  | true =>
    obtain ⟨id, hhandler, hslot, -⟩ := (h.entry tag).valid hvalid
    have hnot : ¬ s.Owed id := howed hvalid id hhandler
    have htable := h.tableOk_deregister hvalid hhandler hnot
    have hentry (u : HandlerTag) (hu : u ≠ tag) := entry_deregister_of_ne hvalid hhandler hu
    have hregistrations := registrations_deregister hvalid hhandler
    have hfree : ((s.deregister tag).entry tag).valid = false := by
      rw [entry_deregister hvalid hhandler]
    have hrest : (s.deregister tag).invocations = s.invocations ∧
        (s.deregister tag).nextId = s.nextId ∧ (s.deregister tag).registering = s.registering ∧
        (s.deregister tag).executing = s.executing ∧
        ∀ id', (s.deregister tag).pending id' = s.pending id' := by
      obtain ⟨reactor, registrations, heq⟩ := deregister_eq s tag
      rw [heq]
      exact ⟨rfl, rfl, rfl, rfl, fun _ => rfl⟩
    obtain ⟨hinvocations, hnext, hregistering, hexecuting, hpending⟩ := hrest
    refine h.accounts htable hinvocations hpending ?_ ?_ ?_ ?_ ?_
    · intro id'
      rw [hregistrations]
      exact ⟨rfl, rfl⟩
    · intro id' hid'
      obtain ⟨u, hu, huvalid, huhandler⟩ := h.owed id' hid'
      -- the registration that loses its entry is not owed anything
      have hne : u ≠ tag := by
        rintro rfl
        exact hnot (Option.some.inj (huhandler.symm.trans hhandler) ▸ hid')
      rw [IsRegistered, hregistrations]
      exact ⟨u, hu, by rwa [hentry u hne], by rwa [hentry u hne]⟩
    · intro id' hid'
      rw [hnext] at hid'
      have hnamed := h.named id' hid'
      have hne : id' ≠ id := by
        rintro rfl
        rw [hnamed] at hslot
        cases hslot
      rw [hregistrations, if_neg hne]
      exact hnamed
    · intro id'
      rw [hregistrations]
      exact fun hid' => hid'
    · intro call hcall
      rw [hregistering] at hcall
      refine (h.call call hcall).congr ?_ ?_ (flag_deregister hvalid hhandler) ?_ ?_ ?_ ?_ hnext.ge
      · intro u hu
        have hne : u ≠ tag := by
          rintro rfl
          exact Bool.noConfusion (hu.symm.trans hfree)
        rw [hentry u hne] at hu ⊢
        exact ⟨hu, rfl⟩
      · intro u hu _
        have hne : u ≠ tag := by
          rintro rfl
          exact Bool.noConfusion (hvalid.symm.trans hu)
        rw [hentry u hne]
      · exact fun op hop => .inl (hexecuting ▸ hop)
      · rw [hregistrations]
        exact ⟨rfl, rfl⟩
      · rw [hregistrations]
      · -- the registration of the call is not deregistered before its entry is valid
        intro hunwritten
        have hne : call.id ≠ id := by
          rintro rfl
          exact Bool.noConfusion (hvalid.symm.trans (hunwritten tag hslot))
        rw [hregistrations, if_neg hne]

/-! ## The reactor thread and the executor -/

/-- A recorded trigger is as pending as it was before. -/
theorem Inv.push {call : TriggerCall} (h : s.Inv) (hcall : call ∈ s.calls) :
    { s with
      calls := s.calls.erase call
      triggers := s.triggers ++ [Trigger.mk call false] : State }.Inv := by
  refine h.frame ?_ (fun tag => .refl _) rfl rfl rfl ?_ ?_
  · exact h.toTableOk.congr (fun tag => .refl _) (fun _ _ _ => .refl _) rfl (.refl _) rfl
  · intro id
    have herase := ToMathlib.countP_erase_add (fun t : TriggerCall => t.registration = id) hcall
    simp only [pending, List.countP_append, List.countP_singleton, and_true] at herase ⊢
    omega
  · exact fun c hc => (h.call c hc).frame (fun tag => .refl _) rfl rfl rfl

/-- Where the pass stands does not matter. -/
theorem Inv.setWalk (h : s.Inv) (walk : List ℕ) : { s with walk : State }.Inv := by
  refine h.frame ?_ (fun _ => .refl _) rfl rfl rfl (fun _ => rfl) ?_
  · exact h.toTableOk.congr (fun _ => .refl _) (fun _ _ _ => .refl _) rfl (.refl _) rfl
  · exact fun c hc => (h.call c hc).frame (fun _ => .refl _) rfl rfl rfl

/-- The operations of a pass are as pending as they were before. -/
theorem Inv.post (h : s.Inv) :
    { s with opQueue := [], queued := s.queued ++ s.opQueue : State }.Inv := by
  refine h.frame ?_ (fun tag => .refl _) rfl rfl rfl ?_ ?_
  · refine h.toTableOk.congr (fun tag => .refl _) (fun _ _ _ => .refl _) rfl ?_ rfl
    rw [List.nil_append]
    exact List.perm_append_comm
  · intro id
    simp only [pending, List.countP_append, List.nil_append]
    omega
  · exact fun c hc => (h.call c hc).frame (fun tag => .refl _) rfl rfl rfl

/-- The trigger that is visited is handled now. -/
theorem pending_visit {t : Trigger} {position : ℕ} {reactor : EpollReactor RegistrationId}
    (ht : s.triggers[position]? = some t) (hposted : t.isPosted = false) (id : RegistrationId) :
    { s with
      reactor
      triggers := s.triggers.set position { t with isPosted := true }
      opQueue := s.opQueue ++ [⟨t.tag, t.registration⟩] : State }.pending id = s.pending id := by
  have hset := ToMathlib.countP_set_add
    (fun t : Trigger => decide (t.registration = id ∧ t.isPosted = false)) ht
    { t with isPosted := true }
  simp only [pending, List.countP_append, List.countP_singleton, hposted, and_true,
    Bool.true_eq_false, and_false, decide_false, Bool.false_eq_true, ↓reduceIte,
    decide_eq_true_eq] at hset ⊢
  omega

/-- A visit that meets the condition posts the operation of a trigger that was not handled
before. -/
theorem Inv.visit {t : Trigger} {position : ℕ} (h : s.Inv)
    (ht : s.triggers[position]? = some t) (honce : s.VisitsOnce t) : (s.visit position t).Inv := by
  cases hvalid : (s.entry t.tag).valid with
  | false =>
    rw [visit_of_not_valid hvalid]
    exact h
  | true =>
    obtain ⟨hposted, hhandler, hidle⟩ := honce hvalid
    obtain ⟨jobCount, hvisit⟩ := visit_of_valid hvalid position
    rw [hvisit]
    have hentry (u : HandlerTag) : SameEntry (s.entry u)
        (({ s.reactor with jobCount }.setEntry t.tag
          { s.entry t.tag with handlerPosted := true }).operations u) := by
      refine SameEntry.update s.reactor.operations ?_ u
      exact ⟨⟨rfl, rfl, rfl⟩, rfl, rfl⟩
    refine h.frame ⟨?_, ?_, ?_, ?_⟩ hentry rfl rfl rfl (pending_visit ht hposted) ?_
    · exact fun u => (h.entry u).congr (hentry u) (fun _ _ => .refl _) (fun _ _ => rfl)
        fun op hop _ => hop
    · intro op hop
      have hcases : op ∈ s.opQueue ++ s.queued ∨ op = ⟨t.tag, t.registration⟩ := by
        simp only [List.mem_append, List.mem_singleton] at hop ⊢
        tauto
      obtain hold | rfl := hcases
      · exact (h.queue op hold).congr (hentry op.tag).toSameHandler rfl
      · refine QueuedOk.congr ⟨hvalid, hhandler, fun hflag => ?_⟩ (hentry t.tag).toSameHandler rfl
        -- the handler of a one-shot event that is idle was not invoked before
        obtain ⟨id, hid, -, -, honeshot, hrunning⟩ := (h.entry t.tag).valid hvalid
        obtain rfl : t.registration = id := Option.some.inj (hhandler.symm.trans hid)
        by_contra hinvoked
        obtain ⟨op, hop, htag⟩ := hrunning (honeshot.trans hflag) (Nat.pos_of_ne_zero hinvoked)
        exact hidle hflag op (List.mem_append_right _ hop) htag
    · exact fun op hop => (h.executing op hop).congr (hentry op.tag).toSameHandler ⟨rfl, rfl⟩ le_rfl
    · intro u hflag
      rw [(hentry u).isSoftwareEventOneshot] at hflag
      have hold := h.single u hflag
      by_cases hu : t.tag = u
      · subst hu
        have hzero := (hidle hflag).countP_eq_zero
        simp only [List.countP_append, List.countP_singleton] at hzero ⊢
        split <;> omega
      · simp only [List.countP_append, List.countP_singleton, hu, decide_false,
          Bool.false_eq_true, ↓reduceIte] at hold ⊢
        omega
    · exact fun call hcall => (h.call call hcall).frame hentry rfl rfl rfl

/-- The start of an operation does not change what its entry holds. -/
theorem sameHandler_beginOperation (s : State) (op : SoftwareOperation) (u : HandlerTag) :
    SameHandler (s.entry u) ((s.beginOperation op).entry u) := by
  by_cases hu : u = op.tag
  · subst hu
    simp only [beginOperation, entry, EpollReactor.beginSoftwareOperation,
      EpollReactor.setEntry_operations, Function.update_self]
    exact ⟨rfl, rfl, rfl⟩
  · simp only [beginOperation, entry, EpollReactor.beginSoftwareOperation,
      EpollReactor.setEntry_operations, Function.update_of_ne hu]
    exact ⟨rfl, rfl, rfl⟩

/-- The start of an operation invokes the handler of its entry. -/
theorem invoked_beginOperation (hhandler : (s.entry op.tag).handler = some op.registration)
    (id : RegistrationId) :
    (s.beginOperation op).invoked id = s.invoked id + if op.registration = id then 1 else 0 := by
  simp only [beginOperation, invoked, List.countP_append, List.countP_singleton, hhandler,
    Option.some.injEq, decide_eq_true_eq]

/-- An operation that starts is not pending any more. -/
theorem pending_beginOperation (hop : op ∈ s.queued) (id : RegistrationId) :
    (s.beginOperation op).pending id + (if op.registration = id then 1 else 0) =
      s.pending id := by
  have herase := ToMathlib.countP_erase_add (fun o : SoftwareOperation => o.registration = id) hop
  simp only [pending, beginOperation, List.countP_append, decide_eq_true_eq] at herase ⊢
  omega

/-- An operation that starts goes from the queue to the executing ones. -/
theorem perm_beginOperation (hop : op ∈ s.queued) :
    (s.opQueue ++ s.queued.erase op ++ op :: s.executing).Perm
      (s.opQueue ++ s.queued ++ s.executing) := by
  have herase := (List.perm_cons_erase hop).append_right s.executing
  rw [List.append_assoc, List.append_assoc]
  refine List.Perm.append_left _ ?_
  exact List.perm_middle.trans herase.symm

/-- The two operations of a one-shot event that a start would leave are one too many. -/
theorem TableOk.not_mem_of_oneshot (h : s.TableOk) (hop : op ∈ s.queued) {o : SoftwareOperation}
    (ho : o ∈ s.opQueue ++ s.queued.erase op) (htag : o.tag = op.tag)
    (hflag : (s.entry op.tag).isSoftwareEventOneshot = true) : False := by
  have hsingle := h.single op.tag hflag
  have hpos : 0 < (s.opQueue ++ s.queued.erase op).countP (·.tag = op.tag) :=
    List.countP_pos_iff.mpr ⟨o, ho, by simpa using htag⟩
  rw [← (perm_beginOperation hop).countP_eq, List.countP_append, List.countP_cons] at hsingle
  simp only [decide_true, ↓reduceIte] at hsingle
  omega

/-- The handler that a posted operation invokes is registered in the entry of the operation. -/
theorem TableOk.holder (h : s.TableOk) (hop : op ∈ s.opQueue ++ s.queued) :
    (s.registrations op.registration).slot = some op.tag ∧
      (s.registrations op.registration).deregistered = false ∧
      (s.registrations op.registration).isOneshot =
        (s.entry op.tag).isSoftwareEventOneshot := by
  have hqueued := h.queue op hop
  obtain ⟨id, hhandler, hslot, hlive, honeshot, -⟩ := (h.entry op.tag).valid hqueued.valid
  obtain rfl : op.registration = id := Option.some.inj (hqueued.handler.symm.trans hhandler)
  exact ⟨hslot, hlive, honeshot⟩

/-- The start of an operation keeps the table. -/
theorem TableOk.beginOperation (h : s.TableOk) (hop : op ∈ s.queued) :
    (s.beginOperation op).TableOk := by
  have hmem : op ∈ s.opQueue ++ s.queued := List.mem_append_right _ hop
  have hqueued := h.queue op hmem
  obtain ⟨hslot, hlive, honeshot⟩ := h.holder hmem
  have hsame := sameHandler_beginOperation s op
  have hinvoked := invoked_beginOperation hqueued.handler
  refine ⟨?_, ?_, ?_, ?_⟩
  · intro u
    by_cases hu : u = op.tag
    · subst hu
      refine ⟨fun _ => ?_, fun _ => ⟨op, List.mem_cons_self, rfl⟩, fun hrelease => ?_⟩
      · refine ⟨op.registration, (hsame op.tag).handler.trans hqueued.handler, hslot, hlive, ?_,
          fun _ _ => ⟨op, List.mem_cons_self, rfl⟩⟩
        rw [(hsame op.tag).isSoftwareEventOneshot]
        exact honeshot
      · -- a valid entry has nothing to release
        have hold : (s.entry op.tag).releaseHandlerMemory = true := by
          simpa [State.beginOperation, State.entry, EpollReactor.beginSoftwareOperation]
            using hrelease
        exact absurd (hqueued.valid.symm.trans ((h.entry op.tag).release hold).1) Bool.noConfusion
    · have hentry : SameEntry (s.entry u) ((s.beginOperation op).entry u) := by
        simp only [State.beginOperation, State.entry, EpollReactor.beginSoftwareOperation,
          EpollReactor.setEntry_operations, Function.update_of_ne hu]
        exact .refl _
      refine (h.entry u).congr hentry (fun _ _ => .refl _) ?_ fun _ ho _ =>
        List.mem_cons_of_mem _ ho
      intro id hid
      rw [hinvoked, if_neg, Nat.add_zero]
      rintro rfl
      exact hu (Option.some.inj (hid.symm.trans hslot))
  · intro o ho
    have hold : o ∈ s.opQueue ++ s.queued := by
      obtain ho | ho := List.mem_append.mp ho
      · exact List.mem_append_left _ ho
      · exact List.mem_append_right _ (List.mem_of_mem_erase ho)
    obtain ⟨hvalid, hhandler, hfirst⟩ := h.queue o hold
    refine ⟨(hsame o.tag).valid.trans hvalid, (hsame o.tag).handler.trans hhandler, ?_⟩
    intro hflag
    rw [(hsame o.tag).isSoftwareEventOneshot] at hflag
    rw [hinvoked, hfirst hflag, if_neg]
    -- another operation of the same one-shot event would be one too many
    intro hid
    have htag : op.tag = o.tag := by
      have hslot' := (h.holder hold).1
      rw [← hid, hslot] at hslot'
      exact Option.some.inj hslot'
    exact h.not_mem_of_oneshot hop ho htag.symm (htag ▸ hflag)
  · intro o ho
    obtain rfl | ho := List.mem_cons.mp ho
    · refine ⟨hslot, ?_, ?_, fun _ => (hsame o.tag).handler.trans hqueued.handler⟩
      · rw [hinvoked, if_pos rfl]
        omega
      · rw [(hsame o.tag).isSoftwareEventOneshot]
        exact honeshot
    · refine (h.executing o ho).congr (hsame o.tag) ⟨rfl, rfl⟩ ?_
      rw [hinvoked]
      exact Nat.le_add_right _ _
  · intro u hflag
    rw [(hsame u).isSoftwareEventOneshot] at hflag
    have hsingle := h.single u hflag
    rwa [← (perm_beginOperation hop).countP_eq] at hsingle

/-- The start of an operation answers one trigger. -/
theorem Inv.beginOperation (h : s.Inv) (hop : op ∈ s.queued) : (s.beginOperation op).Inv := by
  have hmem : op ∈ s.opQueue ++ s.queued := List.mem_append_right _ hop
  have hqueued := h.queue op hmem
  obtain ⟨hslot, hlive, honeshot⟩ := h.holder hmem
  have hsame := sameHandler_beginOperation s op
  have hinvoked := invoked_beginOperation hqueued.handler
  refine ⟨h.toTableOk.beginOperation hop, ?_, ?_, ?_, ?_, h.named, h.silent, ?_⟩
  · intro i hi
    obtain hi | hi := List.mem_append.mp hi
    · exact h.invocations i hi
    · obtain rfl := List.mem_singleton.mp hi
      exact ⟨hqueued.handler, hlive⟩
  · intro id
    have hcount := h.count id
    have hpending := pending_beginOperation hop id
    rw [hinvoked]
    show _ = (s.registrations id).triggered
    omega
  · intro id hone
    have hle := h.oneshot id hone
    rw [hinvoked]
    split
    · rename_i hid
      subst hid
      have hfirst := hqueued.first (honeshot.symm.trans hone)
      omega
    · exact hle
  · intro id howed
    have hless : s.Owed id := by
      have hlt : (s.beginOperation op).invoked id < s.expected id := howed
      rw [hinvoked] at hlt
      exact lt_of_le_of_lt (Nat.le_add_right _ _) hlt
    exact (h.owed id hless).congr (fun tag _ => hsame tag) rfl
  · intro call hcall
    have hcallOk := h.call call hcall
    refine hcallOk.congr ?_ ?_ ?_ ?_ ⟨rfl, rfl⟩ rfl (fun _ => rfl) le_rfl
    · exact fun u hu => ⟨(hsame u).valid.symm.trans hu, (hsame u).handler⟩
    · exact fun u _ _ => (hsame u).handler
    · exact fun u => (hsame u).isSoftwareEventOneshot
    · intro o ho
      obtain rfl | ho := List.mem_cons.mp ho
      · refine .inr ⟨hqueued.valid, fun hid => ?_⟩
        -- nobody triggers a registration whose tag was not returned
        have hpos := pending_pos_of_mem hmem
        have hquiet := (h.quiet hcallOk.returned).2
        rw [← Option.some.inj (hqueued.handler.symm.trans hid)] at hquiet
        omega
      · exact .inl ho

/-- The end of an operation changes its own entry. -/
theorem entry_finishOperation_of_ne {u : HandlerTag} (hu : u ≠ op.tag) :
    (s.finishOperation op).entry u = s.entry u := by
  simp [finishOperation, entry, EpollReactor.finishSoftwareOperation_eq, Function.update_of_ne hu]

/-- The entry of an operation after its end. -/
theorem entry_finishOperation (s : State) (op : SoftwareOperation) :
    (s.finishOperation op).entry op.tag = { s.entry op.tag with
      executionInProgress := false
      handler := if (s.entry op.tag).isSoftwareEventOneshot ∨
          (s.entry op.tag).releaseHandlerMemory then none
        else (s.entry op.tag).handler
      releaseHandlerMemory := false
      valid := (s.entry op.tag).valid && !(s.entry op.tag).isSoftwareEventOneshot
      handlerPosted := false } := by
  simp [finishOperation, entry, EpollReactor.finishSoftwareOperation_eq]

/-- The end of an operation does not set or reset the flag of an entry. -/
theorem flag_finishOperation (s : State) (op : SoftwareOperation) (u : HandlerTag) :
    ((s.finishOperation op).entry u).isSoftwareEventOneshot =
      (s.entry u).isSoftwareEventOneshot := by
  by_cases hu : u = op.tag
  · subst hu
    rw [entry_finishOperation]
  · rw [entry_finishOperation_of_ne hu]

/-- The end of an operation leaves a valid entry alone, unless it is that of a one-shot event. -/
theorem TableOk.sameHandler_finishOperation (h : s.TableOk) {u : HandlerTag}
    (hvalid : (s.entry u).valid = true)
    (hflag : u = op.tag → (s.entry u).isSoftwareEventOneshot = false) :
    SameHandler (s.entry u) ((s.finishOperation op).entry u) := by
  by_cases hu : u = op.tag
  · have hpersistent := hflag hu
    have hkept : (s.entry u).releaseHandlerMemory = false := by
      rw [Bool.eq_false_iff]
      exact fun hrelease => absurd (hvalid.symm.trans ((h.entry u).release hrelease).1)
        Bool.noConfusion
    subst hu
    rw [entry_finishOperation]
    exact ⟨by simp [hpersistent], by simp [hpersistent, hkept], rfl⟩
  · rw [entry_finishOperation_of_ne hu]
    exact ⟨rfl, rfl, rfl⟩

/-- An entry that is valid after the end of an operation was left alone. -/
theorem TableOk.sameHandler_of_valid (h : s.TableOk) {u : HandlerTag}
    (hvalid : ((s.finishOperation op).entry u).valid = true) :
    (s.entry u).valid = true ∧ SameHandler (s.entry u) ((s.finishOperation op).entry u) := by
  by_cases hu : u = op.tag
  · subst hu
    rw [entry_finishOperation] at hvalid
    obtain ⟨hold, hflag⟩ := Bool.and_eq_true_iff.mp hvalid
    exact ⟨hold, h.sameHandler_finishOperation hold fun _ => by simpa using hflag⟩
  · rw [entry_finishOperation_of_ne hu] at hvalid ⊢
    exact ⟨hvalid, rfl, rfl, rfl⟩

/-- The end of an operation keeps the table. -/
theorem TableOk.finishOperation (h : s.TableOk) (hop : op ∈ s.executing) :
    (s.finishOperation op).TableOk := by
  refine ⟨?_, ?_, ?_, ?_⟩
  · intro u
    by_cases hu : u = op.tag
    · subst hu
      refine ⟨fun hvalid => ?_, fun hprogress => ?_, fun hrelease => ?_⟩
      · obtain ⟨hold, hsame⟩ := h.sameHandler_of_valid hvalid
        obtain ⟨id, hhandler, hslot, hlive, honeshot, -⟩ := (h.entry op.tag).valid hold
        rw [← hsame.isSoftwareEventOneshot] at honeshot
        refine ⟨id, hsame.handler.trans hhandler, hslot, hlive, honeshot, fun hone => ?_⟩
        -- the entry of a one-shot event is free now
        rw [entry_finishOperation] at hvalid honeshot
        have hflag := honeshot.symm.trans hone
        simp only at hvalid hflag
        simp [hflag] at hvalid
      · rw [entry_finishOperation] at hprogress
        exact Bool.noConfusion hprogress
      · rw [entry_finishOperation] at hrelease
        exact Bool.noConfusion hrelease
    · have hentry : SameEntry (s.entry u) ((s.finishOperation op).entry u) := by
        rw [entry_finishOperation_of_ne hu]
        exact .refl _
      refine (h.entry u).congr hentry (fun _ _ => .refl _) (fun _ _ => rfl) ?_
      intro o ho htag
      refine (List.mem_erase_of_ne ?_).mpr ho
      rintro rfl
      exact hu htag.symm
  · intro o ho
    have hqueued := h.queue o ho
    refine hqueued.congr (h.sameHandler_finishOperation hqueued.valid fun htag => ?_) rfl
    -- a one-shot event with an operation in the queue has none that is executing
    by_contra hflag
    have hsingle := h.single op.tag (htag ▸ (Bool.not_eq_false _ ▸ hflag))
    have hposted : 0 < (s.opQueue ++ s.queued).countP (·.tag = op.tag) :=
      List.countP_pos_iff.mpr ⟨o, ho, by simpa using htag⟩
    have hrunning : 0 < s.executing.countP (·.tag = op.tag) :=
      List.countP_pos_iff.mpr ⟨op, hop, by simp⟩
    rw [List.countP_append] at hsingle
    omega
  · intro o ho
    obtain ⟨hslot, hpos, honeshot, hhandler⟩ := h.executing o (List.mem_of_mem_erase ho)
    refine ⟨hslot, hpos, ?_, fun hvalid => ?_⟩
    · rw [flag_finishOperation]
      exact honeshot
    · obtain ⟨hold, hsame⟩ := h.sameHandler_of_valid hvalid
      exact hsame.handler.trans (hhandler hold)
  · intro u hflag
    rw [flag_finishOperation] at hflag
    refine le_trans ?_ (h.single u hflag)
    exact (List.Sublist.append_left List.erase_sublist _).countP_le

/-- The end of an operation frees the entry of a one-shot event, which is not owed anything. -/
theorem Inv.finishOperation (h : s.Inv) (hop : op ∈ s.executing) : (s.finishOperation op).Inv := by
  obtain ⟨hslot, hpos, honeshot, hhandler⟩ := h.executing op hop
  refine h.accounts (h.toTableOk.finishOperation hop) rfl (fun _ => rfl) (fun _ => ⟨rfl, rfl⟩) ?_
    h.named (fun _ hid => hid) ?_
  · intro id howed
    obtain ⟨tag, htag, hvalid, hid⟩ := h.owed id howed
    have hsame : SameHandler (s.entry tag) ((s.finishOperation op).entry tag) := by
      refine h.sameHandler_finishOperation hvalid fun heq => ?_
      subst heq
      obtain rfl : op.registration = id := Option.some.inj ((hhandler hvalid).symm.trans hid)
      -- a one-shot event that has been invoked is owed nothing
      by_contra hflag
      have hone := honeshot.trans (Bool.not_eq_false _ ▸ hflag)
      simp only [Owed, expected, hone, ↓reduceIte] at howed
      omega
    exact ⟨tag, htag, hsame.valid.trans hvalid, hsame.handler.trans hid⟩
  · intro call hcall
    refine (h.call call hcall).congr ?_ ?_ (flag_finishOperation s op) ?_ ⟨rfl, rfl⟩ rfl
      (fun _ => rfl) le_rfl
    · intro u hu
      obtain ⟨hold, hsame⟩ := h.toTableOk.sameHandler_of_valid hu
      exact ⟨hold, hsame.handler⟩
    · intro u _ hfree
      rw [entry_finishOperation_of_ne fun hu => hfree op hop hu.symm]
    · exact fun o ho => .inl (List.mem_of_mem_erase ho)

/-! ## Whole runs -/

/-- The invariant holds of an empty reactor. -/
theorem Inv.init (size : ℕ) : Inv { reactor := { size } } where
  entry _ := ⟨fun hvalid => Bool.noConfusion hvalid, fun hprogress => Bool.noConfusion hprogress,
    fun hrelease => Bool.noConfusion hrelease⟩
  queue _ hop := absurd hop List.not_mem_nil
  executing _ hop := absurd hop List.not_mem_nil
  single _ _ := Nat.zero_le 1
  invocations _ hi := absurd hi List.not_mem_nil
  count _ := rfl
  oneshot _ _ := Nat.zero_le 1
  owed _ howed := absurd howed (Nat.lt_irrefl 0)
  named _ _ := rfl
  silent _ _ := rfl
  call _ hcall := absurd hcall.symm (Option.some_ne_none _)

/-- A step that meets the condition keeps the invariant. -/
theorem Inv.step {a : Action} (h : s.Inv) (horderly : s.Orderly a) (hs' : s.step a = some s') :
    s'.Inv := by
  cases a with
  | register isOneshot =>
    obtain ⟨-, hs'⟩ := Option.ite_none_right_eq_some.mp hs'
    obtain rfl := Option.some.inj hs'
    exact h.register isOneshot _
  | registerStep =>
    obtain ⟨call, hcall, rfl⟩ := Option.map_eq_some_iff.mp hs'
    exact h.registerStep hcall (horderly call hcall)
  | trigger id =>
    obtain ⟨hreturned, hs'⟩ := Option.ite_none_right_eq_some.mp hs'
    obtain ⟨tag, hslot, rfl⟩ := Option.map_eq_some_iff.mp hs'
    exact h.trigger hreturned hslot (horderly tag hslot)
  | push call =>
    obtain ⟨hcall, hs'⟩ := Option.ite_none_right_eq_some.mp hs'
    obtain rfl := Option.some.inj hs'
    exact h.push hcall
  | deregister tag =>
    obtain rfl := Option.some.inj hs'
    exact h.deregister horderly
  | walk =>
    obtain ⟨-, hs'⟩ := Option.ite_none_right_eq_some.mp hs'
    obtain rfl := Option.some.inj hs'
    exact h.setWalk _
  | visit =>
    cases hwalk : s.walk with
    | nil => simp [State.step, hwalk] at hs'
    | cons position walk =>
      -- the step takes the position from the walk and visits it
      simp only [State.step, hwalk] at hs'
      obtain ⟨t, ht, rfl⟩ := Option.map_eq_some_iff.mp hs'
      exact (h.setWalk walk).visit ht (horderly position (by rw [hwalk]; rfl) t ht)
  | post =>
    obtain ⟨-, hs'⟩ := Option.ite_none_right_eq_some.mp hs'
    obtain rfl := Option.some.inj hs'
    exact h.post
  | begin op =>
    obtain ⟨hop, hs'⟩ := Option.ite_none_right_eq_some.mp hs'
    obtain rfl := Option.some.inj hs'
    exact h.beginOperation hop
  | finish op =>
    obtain ⟨hop, hs'⟩ := Option.ite_none_right_eq_some.mp hs'
    obtain rfl := Option.some.inj hs'
    exact h.finishOperation hop

/-- The invariant holds in every state that orderly steps reach. -/
theorem Inv.of_reachable (hs : machine.ReachableIn Orderly s) : s.Inv :=
  hs.invariant (fun _ ⟨size, hs⟩ => hs ▸ Inv.init size) fun _ _ _ h horderly hs' =>
    h.step horderly hs'

end State

end Asrt.Reactor.Software
