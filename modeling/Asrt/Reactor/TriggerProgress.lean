import Asrt.Reactor.TriggerAccounting

/-!
# Every trigger of a software event is answered once

A trigger that is owed an invocation can be answered: by the operation that is posted for it, or by
the next pass, which visits every recorded tag. `TriggerSoftwareEvent()` wakes nobody, so this is
the pass that the reactor makes when `epoll_wait` returns the next time.

## Main results

* `State.Recorded.of_reachable`: a tag is recorded with the registration that it was returned for.
* `State.exists_finishWalk`: a pass can be finished, and posts an operation for every tag that it
  finds valid.
* `software_events_exactly_once`: the handler of a persistent event is invoked once for each trigger
  and that of a one-shot event once, every trigger can be answered, no other handler is invoked and
  none after its deregistration.
-/

namespace Asrt.Reactor.Software

open LifeCycle (RegistrationId RegisterCall RegisterStage EntryField visitEntry)

namespace State

variable {s s' : State} {id : RegistrationId} {tag : HandlerTag} {op : SoftwareOperation}

/-! ## The recorded tags -/

/-- The tags in `triggered_software_events_`, with the registrations that were triggered. -/
def recorded (s : State) : List TriggerCall := s.triggers.map (·.toTriggerCall)

/-- Every call has the tag of its registration, and a pass walks the recorded tags. -/
structure Recorded (s : State) : Prop where
  slot : ∀ c ∈ s.calls ++ s.recorded, (s.registrations c.registration).slot = some c.tag
  walk : ∀ position ∈ s.walk, position < s.recorded.length

/-- A step that moves calls to the recorded ones and takes no entry from a registration. -/
theorem Recorded.frame (h : s.Recorded)
    (hcalls : ∀ c ∈ s'.calls ++ s'.recorded, c ∈ s.calls ++ s.recorded)
    (hwalk : ∀ position ∈ s'.walk, position < s'.recorded.length)
    (hslot : ∀ id, (s.registrations id).slot ≠ none →
      (s'.registrations id).slot = (s.registrations id).slot) : s'.Recorded := by
  refine ⟨fun c hc => ?_, hwalk⟩
  have hold := h.slot c (hcalls c hc)
  rw [hslot c.registration (by simp [hold]), hold]

/-- `RegisterImpl()` finds an entry for a registration that has none. -/
theorem slot_registerStep {call : RegisterCall} (h : s.CallOk call)
    (hid : (s.registrations id).slot ≠ none) :
    ((s.registerStep call).registrations id).slot = (s.registrations id).slot := by
  have hset (s₁ : State) (g : Registration) (hg : id = call.id → g.slot = (s.registrations id).slot)
      (hs₁ : s₁.registrations = s.registrations) :
      ((s₁.setRegistration call.id g).registrations id).slot = (s.registrations id).slot := by
    by_cases heq : id = call.id
    · rw [heq, setRegistration_self, hg heq, heq]
    · rw [setRegistration_of_ne heq, hs₁]
  unfold State.registerStep
  have hstage := h.stage
  unfold StageOk at hstage
  split
  · split <;> rfl
  · split <;> split <;> rfl
  · rename_i tag hadd
    rw [hadd] at hstage
    refine hset _ _ (fun heq => ?_) rfl
    -- the registration of the call has no entry yet
    exact absurd (heq ▸ hstage.1) hid
  · split
    · rfl
    · exact hset _ _ (fun heq => by rw [heq]) rfl

/-- A deregistration takes no entry from the history. -/
theorem slot_deregister (s : State) (tag : HandlerTag) (id : RegistrationId) :
    ((s.deregister tag).registrations id).slot = (s.registrations id).slot := by
  unfold State.deregister
  split
  · rfl
  split
  · rfl
  · rename_i id' _
    by_cases heq : id = id'
    · rw [heq, setRegistration_self]
    · rw [setRegistration_of_ne heq]

/-- A visit leaves the recorded tags. -/
theorem recorded_visit {t : Trigger} {position : ℕ} (ht : s.triggers[position]? = some t) :
    (s.visit position t).recorded = s.recorded := by
  cases hvalid : (s.entry t.tag).valid with
  | false => rw [visit_of_not_valid hvalid]
  | true =>
    obtain ⟨jobCount, hvisit⟩ := visit_of_valid hvalid position
    rw [hvisit]
    exact ToMathlib.map_set_of_eq (fun t : Trigger => t.toTriggerCall) ht rfl

/-- A visit concerns no call that is being made. -/
theorem calls_visit (s : State) (position : ℕ) (t : Trigger) :
    (s.visit position t).calls = s.calls := by
  unfold State.visit
  split <;> rfl

/-- A visit concerns no registration. -/
theorem registrations_visit (s : State) (position : ℕ) (t : Trigger) :
    (s.visit position t).registrations = s.registrations := by
  unfold State.visit
  split <;> rfl

/-- `RegisterImpl()` leaves the calls, the recorded tags and the pass. -/
theorem trigger_lists_registerStep (s : State) (call : RegisterCall) :
    (s.registerStep call).calls = s.calls ∧ (s.registerStep call).recorded = s.recorded ∧
      (s.registerStep call).walk = s.walk := by
  unfold State.registerStep
  split
  · split <;> exact ⟨rfl, rfl, rfl⟩
  · split <;> split <;> exact ⟨rfl, rfl, rfl⟩
  · exact ⟨rfl, rfl, rfl⟩
  · split <;> exact ⟨rfl, rfl, rfl⟩

/-- A new registration has no entry yet. -/
theorem Recorded.register (h : s.Recorded) (hinv : s.Inv) {isOneshot : Bool}
    (hs' : s.step (.register isOneshot) = some s') : s'.Recorded := by
  obtain ⟨-, hs'⟩ := Option.ite_none_right_eq_some.mp hs'
  obtain rfl := Option.some.inj hs'
  refine h.frame (fun _ hc => hc) h.walk fun id hid => ?_
  have hne : id ≠ s.nextId := by
    rintro rfl
    exact hid (by rw [hinv.named _ le_rfl])
  exact congrArg Registration.slot (setRegistration_of_ne hne _ _)

/-- The call that is in `RegisterImpl()` concerns a registration without an entry. -/
theorem Recorded.registerStep (h : s.Recorded) (hinv : s.Inv)
    (hs' : s.step .registerStep = some s') : s'.Recorded := by
  obtain ⟨call, hcall, rfl⟩ := Option.map_eq_some_iff.mp hs'
  obtain ⟨hcalls, hrecorded, hwalk⟩ := trigger_lists_registerStep s call
  refine h.frame ?_ ?_ fun id hid => slot_registerStep (hinv.call call hcall) hid
  · rw [hcalls, hrecorded]
    exact fun _ hc => hc
  · rw [hwalk, hrecorded]
    exact h.walk

/-- A new call has the tag that its registration was returned. -/
theorem Recorded.trigger (h : s.Recorded) (hs' : s.step (.trigger id) = some s') :
    s'.Recorded := by
  obtain ⟨-, hs'⟩ := Option.ite_none_right_eq_some.mp hs'
  obtain ⟨tag, hslot, rfl⟩ := Option.map_eq_some_iff.mp hs'
  unfold State.trigger
  split
  · have hregistrations (id' : RegistrationId) :
        ((s.setRegistration id { s.registrations id with
          triggered := (s.registrations id).triggered + 1 }).registrations id').slot =
          (s.registrations id').slot := by
      by_cases hid : id' = id
      · rw [hid, setRegistration_self]
      · rw [setRegistration_of_ne hid]
    refine ⟨fun c hc => (hregistrations _).trans ?_, h.walk⟩
    obtain hc | hc := List.mem_append.mp hc
    · obtain hc | hc := List.mem_append.mp hc
      · exact h.slot c (List.mem_append_left _ hc)
      · obtain rfl := List.mem_singleton.mp hc
        exact hslot
    · exact h.slot c (List.mem_append_right _ hc)
  · exact h

/-- The call whose tag is recorded was one before. -/
theorem mem_calls_of_push {call c : TriggerCall} (hcall : call ∈ s.calls)
    (hc : c ∈ s.calls.erase call ++ (s.triggers ++ [Trigger.mk call false]).map (·.toTriggerCall)) :
    c ∈ s.calls ++ s.recorded := by
  simp only [recorded, List.map_append, List.map_cons, List.map_nil, List.mem_append,
    List.mem_singleton] at hc ⊢
  obtain hc | hc | rfl := hc
  · exact .inl (List.mem_of_mem_erase hc)
  · exact .inr hc
  · exact .inl hcall

/-- A recorded tag comes behind those that a pass walks. -/
theorem Recorded.push (h : s.Recorded) {call : TriggerCall}
    (hs' : s.step (.push call) = some s') : s'.Recorded := by
  obtain ⟨hcall, hs'⟩ := Option.ite_none_right_eq_some.mp hs'
  obtain rfl := Option.some.inj hs'
  refine h.frame (fun c hc => mem_calls_of_push hcall hc) (fun position hp => ?_) fun _ _ => rfl
  have hlt := h.walk position hp
  simp only [recorded, List.map_append, List.length_append, List.map_cons, List.map_nil,
    List.length_singleton] at hlt ⊢
  omega

/-- A pass goes on behind the tag that it visits. -/
theorem Recorded.visit (h : s.Recorded) (hs' : s.step .visit = some s') : s'.Recorded := by
  cases hwalk : s.walk with
  | nil => simp [State.step, hwalk] at hs'
  | cons position walk =>
    simp only [State.step, hwalk] at hs'
    obtain ⟨t, ht, rfl⟩ := Option.map_eq_some_iff.mp hs'
    have hrecorded := recorded_visit (s := { s with walk }) ht
    have hwalk' := (visit_spec (s := { s with walk }) ht).1
    refine h.frame ?_ ?_ fun id _ => ?_
    · rw [hrecorded]
      intro c hc
      rwa [calls_visit] at hc
    · rw [hwalk', hrecorded]
      exact fun p hp => h.walk p (by rw [hwalk]; exact List.mem_cons_of_mem _ hp)
    · rw [registrations_visit]

/-- Every step keeps the recorded tags in order. -/
theorem Recorded.step {a : Action} (h : s.Recorded) (hinv : s.Inv) (hs' : s.step a = some s') :
    s'.Recorded := by
  cases a with
  | register isOneshot => exact h.register hinv hs'
  | registerStep => exact h.registerStep hinv hs'
  | trigger id => exact h.trigger hs'
  | push call => exact h.push hs'
  | deregister tag =>
    obtain rfl := Option.some.inj hs'
    obtain ⟨reactor, registrations, heq⟩ := deregister_eq s tag
    have hslot (id : RegistrationId) := slot_deregister s tag id
    rw [heq] at hslot ⊢
    exact h.frame (fun _ hc => hc) h.walk fun id _ => hslot id
  | walk =>
    obtain ⟨-, hs'⟩ := Option.ite_none_right_eq_some.mp hs'
    obtain rfl := Option.some.inj hs'
    refine h.frame (fun _ hc => hc) (fun position hp => ?_) fun _ _ => rfl
    simpa [recorded] using hp
  | visit => exact h.visit hs'
  | post =>
    obtain ⟨-, hs'⟩ := Option.ite_none_right_eq_some.mp hs'
    obtain rfl := Option.some.inj hs'
    exact h.frame (fun _ hc => hc) h.walk fun _ _ => rfl
  | begin op | finish op =>
    obtain ⟨-, hs'⟩ := Option.ite_none_right_eq_some.mp hs'
    obtain rfl := Option.some.inj hs'
    exact h.frame (fun _ hc => hc) h.walk fun _ _ => rfl

/-- The recorded tags are in order in every state that orderly steps reach. -/
theorem Recorded.of_reachable (hs : machine.ReachableIn Orderly s) : s.Recorded := by
  have hboth : s.Inv ∧ s.Recorded := by
    refine hs.invariant (I := fun s => s.Inv ∧ s.Recorded) ?_ fun s a s' h horderly hs' =>
      ⟨h.1.step horderly hs', h.2.step h.1 hs'⟩
    rintro s ⟨size, rfl⟩
    exact ⟨Inv.init size, fun _ hc => absurd hc List.not_mem_nil,
      fun _ hp => absurd hp List.not_mem_nil⟩
  exact hboth.2

/-! ## The answer to a trigger -/

/-- The operation will call the handler of the registration that was triggered. -/
structure Ready (s : State) (op : SoftwareOperation) : Prop where
  valid : (s.entry op.tag).valid = true
  handler : (s.entry op.tag).handler = some op.registration
  live : (s.registrations op.registration).deregistered = false

/-- What the visits of a pass leave as it is. -/
structure Visited (s s' : State) : Prop where
  invocations : s'.invocations = s.invocations
  registrations : s'.registrations = s.registrations
  calls : s'.calls = s.calls
  recorded : s'.recorded = s.recorded
  entry : ∀ u, SameHandler (s.entry u) (s'.entry u)
  opQueue : ∀ op ∈ s.opQueue, op ∈ s'.opQueue

/-- Two passes of visits. -/
theorem Visited.trans {s₁ s₂ : State} (h : Visited s s₁) (h' : Visited s₁ s₂) : Visited s s₂ where
  invocations := h'.invocations.trans h.invocations
  registrations := h'.registrations.trans h.registrations
  calls := h'.calls.trans h.calls
  recorded := h'.recorded.trans h.recorded
  entry u := ⟨(h'.entry u).valid.trans (h.entry u).valid,
    (h'.entry u).handler.trans (h.entry u).handler,
    (h'.entry u).isSoftwareEventOneshot.trans (h.entry u).isSoftwareEventOneshot⟩
  opQueue op hop := h'.opQueue op (h.opQueue op hop)

/-- An operation is as ready after a pass as before. -/
theorem Ready.visited (h : s.Ready op) (h' : Visited s s') : s'.Ready op where
  valid := (h'.entry op.tag).valid.trans h.valid
  handler := (h'.entry op.tag).handler.trans h.handler
  live := h'.registrations ▸ h.live

/-- A visit leaves all but one flag, and posts an operation if it finds the entry valid. -/
theorem visited_visit {t : Trigger} {position : ℕ} (ht : s.triggers[position]? = some t) :
    Visited s (s.visit position t) ∧ ((s.entry t.tag).valid = true →
      ⟨t.tag, t.registration⟩ ∈ (s.visit position t).opQueue) := by
  have hrecorded := recorded_visit ht
  cases hvalid : (s.entry t.tag).valid with
  | false =>
    rw [visit_of_not_valid hvalid]
    exact ⟨⟨rfl, rfl, rfl, rfl, fun _ => ⟨rfl, rfl, rfl⟩, fun _ hop => hop⟩,
      fun h => Bool.noConfusion h⟩
  | true =>
    obtain ⟨jobCount, hvisit⟩ := visit_of_valid hvalid position
    rw [hvisit] at hrecorded ⊢
    refine ⟨⟨rfl, rfl, rfl, hrecorded, fun u => ?_, fun op hop => List.mem_append_left _ hop⟩,
      fun _ => List.mem_append_right _ (List.mem_singleton_self _)⟩
    have hsame : SameEntry (s.entry t.tag) { s.entry t.tag with handlerPosted := true } :=
      ⟨⟨rfl, rfl, rfl⟩, rfl, rfl⟩
    exact (SameEntry.update s.reactor.operations hsame u).toSameHandler

/-- A pass can be finished. It posts an operation for every tag it had still to visit and finds
valid. -/
theorem exists_finishWalk {walk : List ℕ} (hwalk : s.walk = walk)
    (hlt : ∀ position ∈ walk, position < s.recorded.length) :
    ∃ s', machine.Leads Answers s s' ∧ s'.walk = [] ∧ Visited s s' ∧
      ∀ position ∈ walk, ∀ c, s.recorded[position]? = some c → (s.entry c.tag).valid = true →
        ⟨c.tag, c.registration⟩ ∈ s'.opQueue := by
  induction walk generalizing s with
  | nil =>
    exact ⟨s, .refl, hwalk, ⟨rfl, rfl, rfl, rfl, fun _ => ⟨rfl, rfl, rfl⟩, fun _ hop => hop⟩,
      fun _ hp => absurd hp List.not_mem_nil⟩
  | cons position walk ih =>
    have hposition : position < s.triggers.length := by
      simpa [recorded] using hlt position List.mem_cons_self
    obtain ⟨t, ht⟩ : ∃ t, s.triggers[position]? = some t :=
      ⟨_, List.getElem?_eq_getElem hposition⟩
    have hstep : s.step .visit = some ({ s with walk }.visit position t) := by
      simp [State.step, hwalk, ht]
    obtain ⟨hvisited, hposted⟩ := visited_visit (s := { s with walk }) ht
    obtain ⟨s', hleads, hnil, hrest, hall⟩ := ih (visit_spec (s := { s with walk }) ht).1
      fun p hp => by rw [hvisited.recorded]; exact hlt p (List.mem_cons_of_mem _ hp)
    have hfirst : Visited s ({ s with walk }.visit position t) := ⟨hvisited.invocations,
      hvisited.registrations, hvisited.calls, hvisited.recorded, hvisited.entry, hvisited.opQueue⟩
    have hvisit : machine.Leads Answers s ({ s with walk }.visit position t) :=
      ToMathlib.Machine.Leads.of_step (a := .visit) trivial hstep
    refine ⟨s', hvisit.trans hleads, hnil, hfirst.trans hrest, fun p hp c hc hvalid => ?_⟩
    obtain rfl | hp := List.mem_cons.mp hp
    · -- this tag is visited first
      obtain rfl : t.toTriggerCall = c := by
        rw [recorded, List.getElem?_map, ht] at hc
        exact Option.some.inj hc
      exact hrest.opQueue _ (hposted hvalid)
    · exact hall p hp c (by rw [hvisited.recorded]; exact hc)
        ((hvisited.entry c.tag).valid.trans hvalid)

/-- The handler can be called once, and no other one has to be called before. -/
def Answerable (s : State) (op : SoftwareOperation) : Prop :=
  ∃ s', machine.Leads Answers s s' ∧
    s'.invocations = s.invocations ++ [⟨some op.registration, op.registration, false⟩]

/-- Steps that call no handler may come first. -/
theorem Answerable.of_leads (hleads : machine.Leads Answers s s')
    (hinvocations : s'.invocations = s.invocations) (h : s'.Answerable op) : s.Answerable op := by
  obtain ⟨s'', hrest, heq⟩ := h
  exact ⟨s'', hleads.trans hrest, by rw [heq, hinvocations]⟩

/-- So may one such step. -/
theorem Answerable.of_step {a : Action} (hs' : s.step a = some s') (ha : s.Answers a)
    (hinvocations : s'.invocations = s.invocations) (h : s'.Answerable op) : s.Answerable op :=
  .of_leads (.of_step ha hs') hinvocations h

/-- A posted operation calls its handler. -/
theorem Ready.answerable_of_queued (h : s.Ready op) (hop : op ∈ s.queued) : s.Answerable op := by
  refine ⟨s.beginOperation op, ToMathlib.Machine.Leads.of_step (a := .begin op) trivial ?_, ?_⟩
  · exact if_pos hop
  · simp only [beginOperation, h.handler, h.live]

/-- An operation of the pass is posted when the pass is finished. -/
theorem Ready.answerable_of_opQueue (h : s.Ready op) (hrecorded : s.Recorded)
    (hop : op ∈ s.opQueue) : s.Answerable op := by
  obtain ⟨s₁, hleads, hnil, hvisited, -⟩ := exists_finishWalk rfl hrecorded.walk
  refine .of_leads hleads hvisited.invocations ?_
  have hstep : s₁.step .post = some { s₁ with opQueue := [], queued := s₁.queued ++ s₁.opQueue } :=
    if_pos hnil
  refine .of_step hstep trivial rfl ?_
  have hready := h.visited hvisited
  exact Ready.answerable_of_queued ⟨hready.valid, hready.handler, hready.live⟩
    (List.mem_append_right _ (hvisited.opQueue op hop))

/-- The visits of a pass keep the recorded tags in order. -/
theorem Recorded.visited (h : s.Recorded) (h' : Visited s s') (hnil : s'.walk = []) :
    s'.Recorded := by
  refine ⟨fun c hc => ?_, fun p hp => ?_⟩
  · rw [h'.calls, h'.recorded] at hc
    rw [h'.registrations]
    exact h.slot c hc
  · rw [hnil] at hp
    cases hp

/-- A pass that starts visits every recorded tag. -/
theorem Ready.answerable_of_pass (h : s.Ready op) (hrecorded : s.Recorded)
    (hwalk : s.walk = List.range s.triggers.length)
    (hop : ⟨op.tag, op.registration⟩ ∈ s.recorded) : s.Answerable op := by
  obtain ⟨position, hposition⟩ := List.getElem?_of_mem hop
  have hlt : position < s.triggers.length := by
    have hsome := List.getElem?_eq_some_iff.mp hposition
    simpa [recorded] using hsome.1
  obtain ⟨s₁, hleads, hnil, hvisited, hall⟩ := exists_finishWalk rfl hrecorded.walk
  refine .of_leads hleads hvisited.invocations ?_
  exact (h.visited hvisited).answerable_of_opQueue (hrecorded.visited hvisited hnil)
    (hall position (by simpa [hwalk] using hlt) _ hposition h.valid)

/-- A recorded tag is visited by the next pass, which starts when the operations of the one before
are posted. -/
theorem Ready.answerable_of_recorded (h : s.Ready op) (hrecorded : s.Recorded)
    (hop : ⟨op.tag, op.registration⟩ ∈ s.recorded) : s.Answerable op := by
  obtain ⟨s₁, hleads, hnil, hvisited, -⟩ := exists_finishWalk rfl hrecorded.walk
  refine .of_leads hleads hvisited.invocations ?_
  have hpost : s₁.step .post = some { s₁ with opQueue := [], queued := s₁.queued ++ s₁.opQueue } :=
    if_pos hnil
  refine .of_step hpost trivial rfl ?_
  have hwalk : { s₁ with opQueue := [], queued := s₁.queued ++ s₁.opQueue : State }.step .walk =
      some { s₁ with
        opQueue := []
        queued := s₁.queued ++ s₁.opQueue
        walk := List.range s₁.triggers.length } := if_pos ⟨hnil, rfl⟩
  refine .of_step hwalk trivial rfl ?_
  have hready := h.visited hvisited
  have hslot := (hrecorded.visited hvisited hnil).slot
  refine Ready.answerable_of_pass ⟨hready.valid, hready.handler, hready.live⟩
    ⟨hslot, fun p hp => by simpa [recorded] using hp⟩ rfl ?_
  exact hvisited.recorded ▸ hop

/-- A call that has passed its check records its tag between two passes. -/
theorem Ready.answerable_of_call (h : s.Ready op) (hrecorded : s.Recorded)
    (hop : ⟨op.tag, op.registration⟩ ∈ s.calls) : s.Answerable op := by
  obtain ⟨s₁, hleads, hnil, hvisited, -⟩ := exists_finishWalk rfl hrecorded.walk
  refine .of_leads hleads hvisited.invocations ?_
  have hcall : (⟨op.tag, op.registration⟩ : TriggerCall) ∈ s₁.calls := hvisited.calls ▸ hop
  have hpush : s₁.step (.push ⟨op.tag, op.registration⟩) = some { s₁ with
      calls := s₁.calls.erase ⟨op.tag, op.registration⟩
      triggers := s₁.triggers ++ [Trigger.mk ⟨op.tag, op.registration⟩ false] } := if_pos hcall
  refine .of_step hpush hnil rfl ?_
  have hready := h.visited hvisited
  refine Ready.answerable_of_recorded ⟨hready.valid, hready.handler, hready.live⟩
    ⟨fun c hc => ?_, fun p hp => ?_⟩ (by simp [recorded])
  · have hold : c ∈ s.calls ++ s.recorded := by
      rw [← hvisited.calls, ← hvisited.recorded]
      exact mem_calls_of_push hcall hc
    show (s₁.registrations c.registration).slot = some c.tag
    rw [hvisited.registrations]
    exact hrecorded.slot c hold
  · rw [show s₁.walk = [] from hnil] at hp
    cases hp

/-- A registration that is owed an invocation can be answered. -/
theorem Inv.exists_answer (h : s.Inv) (hrecorded : s.Recorded) (howed : s.Owed id) :
    ∃ s', machine.Leads Answers s s' ∧
      s'.invocations = s.invocations ++ [⟨some id, id, false⟩] := by
  obtain ⟨tag, hslot, hvalid, hhandler⟩ := h.owed id howed
  have hready : s.Ready ⟨tag, id⟩ := by
    obtain ⟨id', hid', -, hlive, -⟩ := (h.entry tag).valid hvalid
    exact ⟨hvalid, hhandler, Option.some.inj (hid'.symm.trans hhandler) ▸ hlive⟩
  have hcall {c : TriggerCall} (hc : c ∈ s.calls ++ s.recorded) (hid : c.registration = id) :
      c = ⟨tag, id⟩ := by
    have hctag := hrecorded.slot c hc
    rw [hid, hslot] at hctag
    obtain ⟨ctag, cid⟩ := c
    exact congrArg₂ TriggerCall.mk (Option.some.inj hctag).symm hid
  have hpending : 0 < s.pending id := by
    have hcount := h.count id
    simp only [Owed, expected] at howed
    split at howed <;> omega
  -- the trigger is being made, recorded or posted
  simp only [pending] at hpending
  by_cases hcalls : 0 < s.calls.countP (·.registration = id)
  · obtain ⟨c, hc, hid⟩ := List.countP_pos_iff.mp hcalls
    have heq := hcall (List.mem_append_left _ hc) (by simpa using hid)
    exact hready.answerable_of_call hrecorded (heq ▸ hc)
  by_cases htriggers :
      0 < s.triggers.countP (fun t => t.registration = id ∧ t.isPosted = false)
  · obtain ⟨t, ht, hid⟩ := List.countP_pos_iff.mp htriggers
    have hmem : t.toTriggerCall ∈ s.recorded := List.mem_map_of_mem ht
    have heq := hcall (List.mem_append_right _ hmem) (by simpa using (of_decide_eq_true hid).1)
    exact hready.answerable_of_recorded hrecorded (heq ▸ hmem)
  · obtain ⟨op, hop, hid⟩ := List.countP_pos_iff.mp
      (show 0 < (s.opQueue ++ s.queued).countP (·.registration = id) by omega)
    have hqueued := h.queue op hop
    obtain ⟨id', hid', hslot', -⟩ := (h.entry op.tag).valid hqueued.valid
    have heq : op = ⟨tag, id⟩ := by
      obtain rfl : op.registration = id := by simpa using hid
      obtain rfl : op.registration = id' := Option.some.inj (hqueued.handler.symm.trans hid')
      rw [hslot] at hslot'
      obtain ⟨optag, opid⟩ := op
      exact congrArg₂ SoftwareOperation.mk (Option.some.inj hslot').symm rfl
    rw [heq] at hop
    obtain hop | hop := List.mem_append.mp hop
    · exact hready.answerable_of_opQueue hrecorded hop
    · exact hready.answerable_of_queued hop

/-- The invariant gives what is promised. -/
theorem Inv.softwareEventsOk (h : s.Inv) (hrecorded : s.Recorded) : s.SoftwareEventsOk where
  persistent id hpersistent := by
    refine ⟨h.count id, fun hpending => h.owed id ?_⟩
    have hcount := h.count id
    simp only [Owed, expected, hpersistent, Bool.false_eq_true, ↓reduceIte]
    omega
  oneshot id honeshot := by
    refine ⟨h.oneshot id honeshot, fun htriggered => ?_⟩
    have hcount := h.count id
    have hle := h.oneshot id honeshot
    by_cases hinvoked : s.invoked id = 1
    · exact .inl hinvoked
    · -- no invocation yet, so the trigger is pending and the registration is owed one
      refine .inr ⟨by omega, h.owed id ?_⟩
      simp only [Owed, expected, honeshot, ↓reduceIte]
      omega
  answered id howed := h.exists_answer hrecorded howed
  invocations := h.invocations

end State

/-! ## The result -/

open State in
/-- Software events are answered exactly once. In every run whose steps are orderly, in every state
reached: each successful trigger of a persistent event has invoked the handler once or is on its way
to it; the handler of a one-shot event that was triggered was invoked once or will be, and never
twice; what is on its way can be answered by recording the tag, a pass and the start of its
operation; every handler that was invoked is that of the registration that was triggered, and this
was not deregistered before. -/
theorem software_events_exactly_once {s : State} (hs : machine.ReachableIn Orderly s) :
    s.SoftwareEventsOk :=
  (Inv.of_reachable hs).softwareEventsOk (Recorded.of_reachable hs)

open State in
/-- A persistent event is triggered twice and deregistered while its two operations are executing; a
one-shot event takes another entry and is triggered once. -/
theorem software_events_exactly_once_two_events :
    ∃ s, machine.ReachableIn Orderly s ∧ s.invoked 0 = 2 ∧ s.invoked 1 = 1 ∧
      (s.registrations 0).deregistered = true ∧ (s.registrations 1).isOneshot = true ∧
      s.SoftwareEventsOk := by
  have hs := ToMathlib.Machine.reachableIn_get_run (M := machine) (C := Orderly)
    (s := { reactor := { size := 2 } })
    (l := List.flatten [[.register false], List.replicate 9 .registerStep,
      [.trigger 0, .push ⟨0, 0⟩, .trigger 0, .push ⟨0, 0⟩, .walk, .visit, .visit, .post,
        .begin ⟨0, 0⟩, .begin ⟨0, 0⟩, .deregister 0, .register true],
      List.replicate 10 .registerStep,
      [.finish ⟨0, 0⟩, .finish ⟨0, 0⟩, .trigger 1, .push ⟨1, 1⟩, .walk, .visit, .visit, .visit,
        .post, .begin ⟨1, 1⟩]]) ⟨2, rfl⟩ (by decide)
  exact ⟨_, hs, by decide, by decide, by decide, by decide, software_events_exactly_once hs⟩

open State in
/-- A persistent event is triggered once. The second pass finds the tag still recorded, and the
handler is invoked again. -/
theorem software_events_exactly_once_second_pass :
    ∃ s, machine.Reachable s ∧ (s.registrations 0).triggered = 1 ∧ s.invoked 0 = 2 ∧
      ¬ s.SoftwareEventsOk := by
  have hs := ToMathlib.Machine.reachableIn_get_run (M := machine)
    (C := ToMathlib.Machine.Always) (s := { reactor := { size := 1 } })
    (l := List.flatten [[.register false], List.replicate 9 .registerStep,
      [.trigger 0, .push ⟨0, 0⟩, .walk, .visit, .post, .begin ⟨0, 0⟩, .finish ⟨0, 0⟩,
        .walk, .visit, .post, .begin ⟨0, 0⟩]]) ⟨1, rfl⟩ (by decide)
  refine ⟨_, hs, by decide, by decide, fun hok => ?_⟩
  exact absurd (hok.persistent 0 (by decide)).1 (by decide)

end Asrt.Reactor.Software
