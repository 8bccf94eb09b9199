import Asrt.Reactor.HandlerRelease

/-!
# The posted flag and the slots of the operation table

`handler_posted_` says that an operation of the entry is queued or executing, and an entry that is
neither valid nor posted is free for `FindFreeOperationSlot()`. `State.Reclaimed` states both, and
that the search finds the first entry without a registration and without an operation, so that no
slot is lost.

The flag is set with the operation and cleared at its end, but `MakeIoEventOpertaionHandler()`
returns early for an entry that was deregistered while the operation was queued, and leaves the flag
set. `slots_reclaimed` is about the runs in which no operation of an invalid entry is started, and
in which no event disturbs `RegisterImpl()`. `slots_reclaimed_deregistered_while_queued` is a run
that loses the only slot of a table.
-/

namespace Asrt.Reactor.LifeCycle

namespace State

/-- What is to hold of the posted flags and of the free slots. -/
structure Reclaimed (s : State) : Prop where
  /-- An entry is posted exactly while an operation of its tag is queued or executing. -/
  posted : ∀ tag, (s.reactor.operations tag).handlerPosted = true ↔ 0 < s.operationCount tag
  /-- A search for a descriptor that is not registered finds the first slot that has neither a
  registration nor an operation. -/
  found : ∀ ioSource, (∀ tag, (s.reactor.operations tag).valid = true →
      (s.reactor.operations tag).ioSource ≠ ioSource) →
    ∀ tag, tag < s.reactor.size → (s.reactor.operations tag).valid = false →
      s.operationCount tag = 0 →
      (∀ u, u < tag → (s.reactor.operations u).valid = true ∨ 0 < s.operationCount u) →
      (s.reactor.findFreeOperationSlot ioSource).2 = .ok tag

/-- An operation is started only while its entry is valid. -/
def StartsValid (s : State) : Action → Prop
  | .begin tag => (s.reactor.operations tag).valid = true
  | _ => True

instance (s : State) : (a : Action) → Decidable (s.StartsValid a)
  | .begin tag => inferInstanceAs (Decidable ((s.reactor.operations tag).valid = true))
  | .openFd _ | .closeFd _ | .register _ _ | .registerStep _ | .deregister _ _ | .start _ _ _
  | .ignore _ _ | .consume _ _ | .wait _ | .handleEvent | .abandon | .finish _ _ =>
    inferInstanceAs (Decidable True)

/-- The condition on a step: no event is posted for the entry that `RegisterImpl()` is writing, and
no operation of an invalid entry is started. -/
def Unleaked (s : State) (a : Action) : Prop := s.Undisturbed a ∧ s.StartsValid a

instance (s : State) (a : Action) : Decidable (s.Unleaked a) := inferInstanceAs (Decidable (_ ∧ _))

/-- An entry that `FindFreeOperationSlot()` takes. -/
def IsFree (s : State) (tag : HandlerTag) : Prop :=
  (s.reactor.operations tag).valid = false ∧ (s.reactor.operations tag).handlerPosted = false

/-- Where a call of `RegisterImpl()` stands with respect to the entries in use: the entries it has
visited since the last one in use are free, and the slot it takes counts as in use. -/
def SearchOk (s : State) : RegisterStage → Prop
  | .visit its position lastUsedEntry =>
    ∃ k ≤ min (s.reactor.usedOperationsEnd + 1) s.reactor.size,
      its = List.range' k (min (s.reactor.usedOperationsEnd + 1) s.reactor.size - k) ∧
      (∀ j < k, (∀ l ∈ lastUsedEntry, l < j) → s.IsFree j) ∧
      (∀ l ∈ lastUsedEntry, l < k) ∧
      ∀ tag ∈ position, ∃ l ∈ lastUsedEntry, tag ≤ l
  | .add tag | .write tag _ => tag < s.reactor.usedOperationsEnd

/-- The invariant behind the search: the entries from `used_operations_end_` on are free. -/
structure UsedOk (s : State) : Prop where
  bound : s.reactor.usedOperationsEnd ≤ s.reactor.size
  beyond : ∀ tag, s.reactor.usedOperationsEnd ≤ tag → s.IsFree tag
  search : ∀ call ∈ s.registering, s.SearchOk call.stage

/-- A posted entry has an operation. -/
def PostedOk (s : State) : Prop :=
  ∀ tag, (s.reactor.operations tag).handlerPosted = true → 0 < s.operationCount tag

variable {s s' : State} {tag : HandlerTag} {call : RegisterCall} {a : Action}

/-- With the other half of the flag, the invariants give what is promised. -/
theorem PostedOk.reclaimed (h : s.PostedOk) (hused : s.UsedOk) (hinv : s.Inv) : s.Reclaimed := by
  have hposted (tag : HandlerTag) :
      (s.reactor.operations tag).handlerPosted = true ↔ 0 < s.operationCount tag := by
    refine ⟨h tag, fun hpos => ?_⟩
    by_contra hnot
    have hle := (hinv.slot tag).posted
    rw [Bool.eq_false_of_not_eq_true hnot, Bool.toNat_false] at hle
    omega
  have hfree (tag : HandlerTag) (hnone : s.operationCount tag = 0) :
      (s.reactor.operations tag).handlerPosted = false := by
    by_contra hposted'
    have := (hposted tag).mp (by simpa using hposted')
    omega
  refine ⟨hposted, fun ioSource hnew tag htag hvalid hnone hfirst => ?_⟩
  refine EpollReactor.findFreeOperationSlot_first hnew ?_ hvalid (hfree tag hnone) ?_
  · -- the entry at `used_operations_end_` is free, so the first free one is not beyond it
    rw [lt_min_iff]
    refine ⟨?_, htag⟩
    by_contra hbeyond
    obtain ⟨hvalid', hposted'⟩ := hused.beyond s.reactor.usedOperationsEnd le_rfl
    rcases hfirst s.reactor.usedOperationsEnd (Nat.lt_of_succ_le (Nat.le_of_not_lt hbeyond)) with
      hu | hu
    · simp [hvalid'] at hu
    · simp [(hposted _).mpr hu] at hposted'
  · intro u hu
    exact (hfirst u hu).imp_right (hposted u).mpr

/-! ## Steps outside `RegisterImpl()` -/

/-- What a step outside `RegisterImpl()` does to the table: it writes one entry, does not take a
free one, and posts it only with an operation. -/
structure Effect (s s' : State) : Prop where
  size : s'.reactor.size = s.reactor.size
  used : s'.reactor.usedOperationsEnd = s.reactor.usedOperationsEnd
  registering : s'.registering = s.registering ∨ ∃ call, s'.registering = some call ∧
    call.stage =
      .visit (List.range (min (s.reactor.usedOperationsEnd + 1) s.reactor.size)) none none
  entry : ∃ tag e, s'.reactor.operations = Function.update s.reactor.operations tag e ∧
    (s.IsFree tag → e.valid = false ∧ e.handlerPosted = false) ∧
    (∀ u, u ≠ tag → s'.operationCount u = s.operationCount u) ∧
    (e.handlerPosted = true → 0 < s'.operationCount tag ∨
      (s.reactor.operations tag).handlerPosted = true ∧
      s'.operationCount tag = s.operationCount tag)

/-- A step that leaves the flags of the entries and the operations alone. -/
theorem Effect.of_flags (hsize : s'.reactor.size = s.reactor.size)
    (hused : s'.reactor.usedOperationsEnd = s.reactor.usedOperationsEnd)
    (hregistering : s'.registering = s.registering) (tag : HandlerTag)
    {e : OperationEntry RegistrationId}
    (hops : s'.reactor.operations = Function.update s.reactor.operations tag e)
    (hvalid : e.valid = true → (s.reactor.operations tag).valid = true)
    (hposted : e.handlerPosted = (s.reactor.operations tag).handlerPosted)
    (hqueued : s'.queued = s.queued) (hexecuting : s'.executing = s.executing) : Effect s s' where
  size := hsize
  used := hused
  registering := .inl hregistering
  entry := by
    have hcount (u) : s'.operationCount u = s.operationCount u := by
      simp only [operationCount, hqueued, hexecuting]
    -- neither a registration nor an operation is added, so a free entry stays free
    refine ⟨tag, e, hops, ?_, fun u _ => hcount u, ?_⟩
    · rintro ⟨hfree, hnot⟩
      refine ⟨?_, hposted.trans hnot⟩
      by_contra hv
      simp [hvalid (by simpa using hv)] at hfree
    · intro hp
      exact .inr ⟨hposted ▸ hp, hcount tag⟩

/-- A step that leaves the table and the operations alone. -/
theorem Effect.of_same (hsize : s'.reactor.size = s.reactor.size)
    (hused : s'.reactor.usedOperationsEnd = s.reactor.usedOperationsEnd)
    (hregistering : s'.registering = s.registering)
    (hops : s'.reactor.operations = s.reactor.operations)
    (hqueued : s'.queued = s.queued) (hexecuting : s'.executing = s.executing) : Effect s s' :=
  .of_flags hsize hused hregistering 0 (hops.trans (Function.update_eq_self 0 _).symm) id rfl
    hqueued hexecuting

/-- An event is recorded, and posted with its operation. -/
theorem effect_handleEvent (hs' : s.step .handleEvent = some s') : Effect s s' := by
  simp only [step] at hs'
  split at hs'
  · cases hs'
  rename_i report batch hbatch
  obtain rfl := Option.some.inj hs'
  by_cases hreports : s.reactor.Reports report.event
  · rw [EpollReactor.handleSingleEvent_of_reports hreports]
    refine ⟨rfl, rfl, .inl rfl, report.event.tag, _, rfl, ?_, ?_, ?_⟩
    · -- only a valid entry is posted
      rintro ⟨hfree, -⟩
      simp [hreports.1] at hfree
    · intro u hu
      simp [operationCount, List.count_append, hu.symm]
    · intro _
      refine .inl ?_
      simp only [operationCount, List.nil_append, reduceCtorEq, if_false, List.count_append,
        List.count_singleton_self]
      omega
  · rw [EpollReactor.handleSingleEvent_of_not_reports hreports]
    exact .of_flags rfl rfl rfl report.event.tag rfl id rfl (by simp) rfl

/-- A deregistration makes the entry invalid and leaves it posted if it was. -/
theorem effect_deregister (s : State) (id : RegistrationId) (tag : HandlerTag)
    (closeOnDeregister : Bool) : Effect s (s.deregister id tag closeOnDeregister) := by
  unfold State.deregister
  split
  · rename_i reactor ec hderegister
    obtain rfl := EpollReactor.derigsterImpl_error hderegister
    exact .of_same rfl rfl rfl rfl rfl rfl
  · rename_i reactor hderegister
    obtain ⟨-, kernel, handler, release, close, rfl⟩ := EpollReactor.derigsterImpl_ok hderegister
    dsimp only
    split
    · exact .of_flags rfl rfl rfl tag rfl Bool.noConfusion rfl rfl rfl
    · rw [settle_eq]
      exact .of_flags rfl rfl rfl tag rfl Bool.noConfusion rfl rfl rfl

/-- An operation of a valid entry moves from the queue to the executing ones, or ends. -/
theorem effect_beginOperation (hvalid : (s.reactor.operations tag).valid = true) :
    Effect s (s.beginOperation tag) := by
  have hqueued (u) (hu : u ≠ tag) : (s.queued.erase tag).count u = s.queued.count u :=
    List.count_erase_of_ne hu
  unfold State.beginOperation
  cases hempty : ((s.reactor.operations tag).capturedEvents.intersection
      (s.reactor.operations tag).monitoredEvents).empty with
  | false =>
    simp only [EpollReactor.beginOperation_of_report hvalid hempty]
    refine ⟨rfl, rfl, .inl rfl, tag, _, rfl, ?_, ?_, ?_⟩
    · rintro ⟨hfree, -⟩
      simp [hvalid] at hfree
    · intro u hu
      simp only [operationCount]
      rw [hqueued u hu, List.countP_cons_of_neg (by simpa using hu.symm)]
    · intro _
      refine .inl ?_
      simp only [operationCount]
      rw [List.countP_cons_of_pos (by simp)]
      omega
  | true =>
    -- there is nothing to report any more, and the entry is not posted afterwards
    simp only [EpollReactor.beginOperation_of_empty hvalid hempty, hvalid, if_true]
    rw [cleanup_eq s (s.queued.erase tag) s.executing]
    refine ⟨rfl, rfl, .inl rfl, tag, _, rfl, ?_, ?_, Bool.noConfusion⟩
    · rintro ⟨hfree, -⟩
      simp [hvalid] at hfree
    · intro u hu
      simp only [operationCount]
      rw [hqueued u hu]

/-- An operation that ends leaves its entry not posted. -/
theorem effect_finishOperation (s : State) (tag : HandlerTag) (handler : Option RegistrationId) :
    Effect s (s.finishOperation tag handler) := by
  unfold State.finishOperation
  rw [cleanup_eq s s.queued (s.executing.erase (tag, handler)), EpollReactor.finishOperation_eq]
  -- the flag is cleared whether or not another operation of the tag is left
  refine ⟨rfl, rfl, .inl rfl, tag, _, rfl, fun hfree => ⟨hfree.1, rfl⟩, ?_, Bool.noConfusion⟩
  intro u hu
  simp only [operationCount]
  rw [List.countP_erase, if_neg (by simp [hu.symm]), Nat.sub_zero]

/-- A step outside `RegisterImpl()` takes no free entry and posts none without an operation. -/
theorem effect_of_step (hC : s.StartsValid a) (hne : ∀ resources, a ≠ .registerStep resources)
    (hs' : s.step a = some s') : Effect s s' := by
  cases a with
  | openFd fd | closeFd fd | abandon =>
    obtain rfl := Option.some.inj hs'
    exact .of_same rfl rfl rfl rfl rfl rfl
  | wait reports =>
    obtain ⟨-, hs'⟩ := Option.ite_none_right_eq_some.mp hs'
    obtain rfl := Option.some.inj hs'
    exact .of_same rfl rfl rfl rfl rfl rfl
  | register fd events =>
    obtain ⟨-, hs'⟩ := Option.ite_none_right_eq_some.mp hs'
    obtain rfl := Option.some.inj hs'
    exact ⟨rfl, rfl, .inr ⟨_, rfl, rfl⟩,
      (Effect.of_same rfl rfl rfl rfl rfl rfl : Effect s s).entry⟩
  | registerStep resources => exact absurd rfl (hne resources)
  | deregister id closeOnDeregister =>
    obtain ⟨tag, -, -, rfl⟩ := step_deregister hs'
    exact effect_deregister s id tag closeOnDeregister
  | start tag opType resources =>
    obtain ⟨-, hs'⟩ := Option.ite_none_right_eq_some.mp hs'
    obtain rfl := Option.some.inj hs'
    obtain ⟨interest, -, heq⟩ :=
      EpollReactor.onStartOfOperation_eq s.reactor tag opType resources
    rw [heq, EpollReactor.markOperationStarted_eq]
    exact .of_flags rfl rfl rfl tag rfl id rfl rfl rfl
  | ignore tag ev =>
    obtain rfl := Option.some.inj hs'
    exact .of_flags rfl rfl rfl tag rfl id rfl rfl rfl
  | consume tag ev =>
    obtain rfl := Option.some.inj hs'
    exact .of_flags rfl rfl rfl tag rfl id rfl rfl rfl
  | handleEvent => exact effect_handleEvent hs'
  | begin tag =>
    obtain ⟨-, hs'⟩ := Option.ite_none_right_eq_some.mp hs'
    obtain rfl := Option.some.inj hs'
    exact effect_beginOperation hC
  | finish tag handler =>
    obtain ⟨-, hs'⟩ := Option.ite_none_right_eq_some.mp hs'
    obtain rfl := Option.some.inj hs'
    exact effect_finishOperation s tag handler

/-- Such a step leaves free entries free. -/
theorem Effect.isFree (h : Effect s s') (hfree : s.IsFree tag) : s'.IsFree tag := by
  obtain ⟨u, e, hops, he, -⟩ := h.entry
  unfold IsFree
  rw [hops]
  by_cases hu : tag = u
  · subst hu
    rw [Function.update_self]
    exact he hfree
  · rw [Function.update_of_ne hu]
    exact hfree

/-- Such a step leaves no posted entry without an operation. -/
theorem Effect.postedOk (h : Effect s s') (hposted : s.PostedOk) : s'.PostedOk := by
  obtain ⟨u, e, hops, -, hothers, he⟩ := h.entry
  intro tag htag
  rw [hops] at htag
  by_cases hu : tag = u
  · subst hu
    rw [Function.update_self] at htag
    rcases he htag with hpos | ⟨hold, hcount⟩
    · exact hpos
    · rw [hcount]
      exact hposted tag hold
  · rw [Function.update_of_ne hu] at htag
    rw [hothers tag hu]
    exact hposted tag htag

/-- What is said of a call depends on which entries are free. -/
theorem SearchOk.transfer {stage : RegisterStage} (h : s.SearchOk stage)
    (hsize : s'.reactor.size = s.reactor.size)
    (hused : s'.reactor.usedOperationsEnd = s.reactor.usedOperationsEnd)
    (hfree : ∀ tag, s.IsFree tag → s'.IsFree tag) : s'.SearchOk stage := by
  cases stage with
  | visit its position lastUsedEntry =>
    obtain ⟨k, hk, hits, hvisited, hlast, hposition⟩ := h
    refine ⟨k, ?_, ?_, fun j hj hl => hfree j (hvisited j hj hl), hlast, hposition⟩
    · rwa [hsize, hused]
    · rwa [hsize, hused]
  | add tag => exact lt_of_lt_of_eq h hused.symm
  | write tag field => exact lt_of_lt_of_eq h hused.symm

/-- A call starts with all entries to visit. -/
theorem searchOk_start (s : State) :
    s.SearchOk (.visit (List.range (min (s.reactor.usedOperationsEnd + 1) s.reactor.size))
      none none) := by
  refine ⟨0, Nat.zero_le _, ?_, ?_, ?_, ?_⟩
  · rw [List.range_eq_range', Nat.sub_zero]
  · intro j hj
    exact absurd hj (Nat.not_lt_zero j)
  · intro l hl
    cases hl
  · intro tag htag
    cases htag

/-- Such a step keeps the bookkeeping of the entries in use. -/
theorem Effect.usedOk (h : Effect s s') (hused : s.UsedOk) : s'.UsedOk where
  bound := by
    rw [h.used, h.size]
    exact hused.bound
  beyond tag htag := h.isFree (hused.beyond tag (h.used ▸ htag))
  search call hcall := by
    rcases h.registering with hsame | ⟨call', hnew, hstage⟩
    · exact (hused.search call (hsame ▸ hcall)).transfer h.size h.used fun tag => h.isFree
    · obtain rfl := Option.some.inj (hnew.symm.trans hcall)
      rw [hstage, ← h.size, ← h.used]
      exact searchOk_start s'

/-! ## Steps of `RegisterImpl()` -/

/-- The loop goes on with the next entry: it is the last one in use, or it is free. -/
theorem SearchOk.visit {it : ℕ} {its : List ℕ} {position lastUsedEntry : Option ℕ}
    {found : Option ℕ × Option ℕ} {ioSource : NativeHandle}
    (h : s.SearchOk (.visit (it :: its) position lastUsedEntry))
    (hvisit : visitEntry ioSource it (s.reactor.operations it) position lastUsedEntry = .ok found) :
    s.SearchOk (.visit its found.1 found.2) := by
  obtain ⟨k, hk, hits, hvisited, hlast, hposition⟩ := h
  -- there is an entry left to visit
  have hlt : k < min (s.reactor.usedOperationsEnd + 1) s.reactor.size := by
    by_contra hnot
    rw [Nat.sub_eq_zero_of_le (Nat.le_of_not_lt hnot)] at hits
    cases hits
  obtain ⟨m, hm⟩ := Nat.exists_eq_add_of_lt hlt
  rw [show min (s.reactor.usedOperationsEnd + 1) s.reactor.size - k = m + 1 by omega,
    List.range'_succ, List.cons.injEq] at hits
  obtain ⟨rfl, rfl⟩ := hits
  refine ⟨it + 1, hlt, ?_, ?_⟩
  · congr 1
    omega
  -- the entry is marked as used, unless it is free and a slot is already found
  have hmark : (found.2 = some it ∧ (found.1 = some it ∨ found.1 = position)) ∨
      (found = (position, lastUsedEntry) ∧ s.IsFree it) := by
    unfold visitEntry at hvisit
    split_ifs at hvisit with hvalid hposted hnone
    · obtain rfl := Except.ok.inj hvisit
      exact .inl ⟨rfl, .inl rfl⟩
    · obtain rfl := Except.ok.inj hvisit
      exact .inr ⟨rfl, by simpa using hvalid, by simpa using hposted⟩
    · obtain rfl := Except.ok.inj hvisit
      exact .inl ⟨rfl, .inr rfl⟩
    · obtain rfl := Except.ok.inj hvisit
      exact .inl ⟨rfl, .inr rfl⟩
  rcases hmark with ⟨hused, hfound⟩ | ⟨rfl, hfree⟩
  · rw [hused]
    refine ⟨?_, ?_, ?_⟩
    · intro j hj hl
      have := hl it rfl
      omega
    · intro l hl
      obtain rfl := Option.some.inj hl
      exact Nat.lt_succ_self _
    · intro tag htag
      refine ⟨it, rfl, ?_⟩
      rcases hfound with hit | hold
      · rw [hit] at htag
        exact (Option.some.inj htag).ge
      · obtain ⟨l, hl, hle⟩ := hposition tag (hold ▸ htag)
        exact hle.trans (hlast l hl).le
  · -- one more free entry behind the last one in use
    refine ⟨?_, fun l hl => (hlast l hl).trans (Nat.lt_succ_self _), hposition⟩
    intro j hj hl
    rcases Nat.lt_succ_iff_lt_or_eq.mp hj with hj | rfl
    · exact hvisited j hj hl
    · exact hfree

/-- A step that changes at most the stage of the call keeps the bookkeeping of the entries
in use. -/
theorem UsedOk.advance (h : s.UsedOk) (hsize : s'.reactor.size = s.reactor.size)
    (hused : s'.reactor.usedOperationsEnd = s.reactor.usedOperationsEnd)
    (hops : s'.reactor.operations = s.reactor.operations)
    (hregistering : ∀ call ∈ s'.registering, s.SearchOk call.stage) : s'.UsedOk := by
  -- the table is the same, so the same entries are free
  have hfree (tag : HandlerTag) (htag : s.IsFree tag) : s'.IsFree tag := by
    unfold IsFree
    rw [hops]
    exact htag
  refine ⟨?_, ?_, ?_⟩
  · rw [hused, hsize]
    exact h.bound
  · intro tag htag
    exact hfree tag (h.beyond tag (hused ▸ htag))
  · intro call hcall
    exact (hregistering call hcall).transfer hsize hused hfree

/-- At the end of the search the entries beyond the last one in use are free. -/
theorem UsedOk.found (h : s.UsedOk) {position lastUsedEntry : Option ℕ}
    (hsearch : s.SearchOk (.visit [] position lastUsedEntry))
    (hsize : s'.reactor.size = s.reactor.size)
    (hused : s'.reactor.usedOperationsEnd =
      if s.reactor.usedOperationsEnd ≠ s.reactor.size
      then (lastUsedEntry.map (· + 1)).getD s.reactor.usedOperationsEnd
      else s.reactor.usedOperationsEnd)
    (hops : s'.reactor.operations = s.reactor.operations)
    (hregistering : ∀ call ∈ s'.registering, ∃ tag ∈ position, call.stage = .add tag) :
    s'.UsedOk := by
  obtain ⟨k, hk, hits, hvisited, hlast, hposition⟩ := hsearch
  obtain rfl : k = min (s.reactor.usedOperationsEnd + 1) s.reactor.size := by
    have := congrArg List.length hits
    simp only [List.length_nil, List.length_range'] at this
    omega
  have hbound := h.bound
  have hbeyond (tag : HandlerTag) (htag : s'.reactor.usedOperationsEnd ≤ tag) : s.IsFree tag := by
    rw [hused] at htag
    split_ifs at htag with hend
    · cases hl : lastUsedEntry with
      | none =>
        rw [hl] at htag
        exact h.beyond tag htag
      | some l =>
        rw [hl] at htag hvisited
        -- the entry was visited after the last one in use, or was beyond the end before
        by_cases hlt : tag < min (s.reactor.usedOperationsEnd + 1) s.reactor.size
        · refine hvisited tag hlt fun l' hl' => ?_
          obtain rfl := Option.some.inj hl'
          exact htag
        · refine h.beyond tag ?_
          have := Nat.le_of_not_lt hlt
          simp only [min_le_iff] at this
          rcases this with hle | hle
          · exact (Nat.le_succ _).trans hle
          · exact hbound.trans hle
    · exact h.beyond tag htag
  refine ⟨?_, ?_, ?_⟩
  · rw [hused, hsize]
    split_ifs with hend
    · cases hl : lastUsedEntry with
      | none => exact hbound
      | some l => exact (Nat.succ_le_of_lt (hlast l hl)).trans (min_le_right _ _)
    · exact hbound
  · intro tag htag
    unfold IsFree
    rw [hops]
    exact hbeyond tag htag
  · -- the slot that was found is not behind the last one in use
    intro call hcall
    obtain ⟨tag, htag, hstage⟩ := hregistering call hcall
    obtain ⟨l, hl, hle⟩ := hposition tag htag
    rw [hstage]
    show tag < s'.reactor.usedOperationsEnd
    rw [hused]
    split_ifs with hend
    · rw [Option.mem_def.mp hl]
      exact Nat.lt_succ_of_le hle
    · exact lt_of_le_of_lt hle (lt_of_lt_of_le (hlast l hl)
        ((min_le_right _ _).trans (not_not.mp hend).ge))

/-- The writes of a call are made to an entry that counts as in use. -/
theorem UsedOk.written (h : s.UsedOk) {e : OperationEntry RegistrationId}
    (htag : tag < s.reactor.usedOperationsEnd) (hsize : s'.reactor.size = s.reactor.size)
    (hused : s'.reactor.usedOperationsEnd = s.reactor.usedOperationsEnd)
    (hops : s'.reactor.operations = Function.update s.reactor.operations tag e)
    (hregistering : ∀ call ∈ s'.registering, ∃ field, call.stage = .write tag field) :
    s'.UsedOk := by
  refine ⟨?_, ?_, ?_⟩
  · rw [hused, hsize]
    exact h.bound
  · intro u hu
    rw [hused] at hu
    unfold IsFree
    -- the entry that is written lies below the end
    rw [hops, Function.update_of_ne (lt_of_lt_of_le htag hu).ne']
    exact h.beyond u hu
  · intro call hcall
    obtain ⟨field, hstage⟩ := hregistering call hcall
    rw [hstage]
    exact lt_of_lt_of_eq htag hused.symm

/-- A step of `RegisterImpl()` keeps the bookkeeping of the entries in use. -/
theorem UsedOk.registerStep (h : s.UsedOk) (hcall : s.registering = some call)
    (resources : Bool) : (s.registerStep call resources).UsedOk := by
  have hsearch := h.search call hcall
  unfold State.registerStep
  split
  · -- an entry is visited
    rename_i it its position lastUsedEntry hstage
    rw [hstage] at hsearch
    split
    · exact h.advance rfl rfl rfl fun _ h => by cases h
    · rename_i position' lastUsedEntry' hvisit
      refine h.advance rfl rfl rfl fun call' hcall' => ?_
      obtain rfl := Option.some.inj hcall'
      exact hsearch.visit hvisit
  · -- the search is over
    rename_i position lastUsedEntry hstage
    rw [hstage] at hsearch
    cases position with
    | none =>
      refine h.found hsearch ?_ ?_ ?_ (fun _ h => by cases h) <;> split <;> rfl
    | some tag =>
      refine h.found hsearch ?_ ?_ ?_ ?_
      · split <;> rfl
      · split <;> rfl
      · split <;> rfl
      · intro call' hcall'
        obtain rfl := Option.some.inj hcall'
        exact ⟨tag, rfl, rfl⟩
  · -- the source is added to the interest list
    rename_i tag hstage
    rw [hstage] at hsearch
    split
    · split
      · exact h.advance rfl rfl rfl fun _ h => by cases h
      · refine h.advance rfl rfl rfl fun call' hcall' => ?_
        obtain rfl := Option.some.inj hcall'
        exact hsearch
    · refine h.advance rfl rfl rfl fun call' hcall' => ?_
      obtain rfl := Option.some.inj hcall'
      exact hsearch
  · -- a member of the entry is written
    rename_i tag field hstage
    rw [hstage] at hsearch
    dsimp only
    split
    · rename_i next hnext
      refine h.written hsearch rfl rfl rfl fun call' hcall' => ?_
      obtain rfl := Option.some.inj hcall'
      exact ⟨next, rfl⟩
    · exact h.written hsearch rfl rfl rfl fun _ h => by cases h

/-- A step of `RegisterImpl()` posts nothing. -/
theorem PostedOk.registerStep (h : s.PostedOk) (call : RegisterCall) (resources : Bool) :
    (s.registerStep call resources).PostedOk := by
  -- none of the members that are written is the flag, but the last, which is cleared
  have hwrite (tag u : HandlerTag) (field : EntryField)
      (hu : (Function.update s.reactor.operations tag
        (call.write (s.reactor.operations tag) field) u).handlerPosted = true) :
      0 < s.operationCount u := by
    by_cases hut : u = tag
    · subst hut
      rw [Function.update_self] at hu
      cases field with
      | handlerPosted => cases hu
      | ioSource | handler | valid | monitoredEvents | capturedEvents => exact h u hu
    · rw [Function.update_of_ne hut] at hu
      exact h u hu
  unfold State.registerStep
  split
  · split <;> exact h
  · split
    · split <;> exact h
    · split <;> exact h
  · split
    · split <;> exact h
    · exact h
  · dsimp only
    split
    · exact fun u hu => hwrite _ u _ hu
    · exact fun u hu => hwrite _ u _ hu

/-! ## All steps -/

/-- A step keeps the posted flags and the bookkeeping of the entries in use. -/
theorem posted_used_step (hposted : s.PostedOk) (hused : s.UsedOk) (hC : s.StartsValid a)
    (hs' : s.step a = some s') : s'.PostedOk ∧ s'.UsedOk := by
  by_cases hne : ∀ resources, a ≠ .registerStep resources
  · have heffect := effect_of_step hC hne hs'
    exact ⟨heffect.postedOk hposted, heffect.usedOk hused⟩
  · push Not at hne
    obtain ⟨resources, rfl⟩ := hne
    obtain ⟨call, hcall, rfl⟩ := Option.map_eq_some_iff.mp hs'
    exact ⟨hposted.registerStep call resources, hused.registerStep hcall resources⟩

/-- The invariants hold of a reactor that has just been built. -/
theorem posted_used_init (size : ℕ) :
    PostedOk { reactor := { size } } ∧ UsedOk { reactor := { size } } := by
  refine ⟨?_, ⟨Nat.zero_le _, fun tag _ => ⟨rfl, rfl⟩, ?_⟩⟩
  · intro tag htag
    cases htag
  · intro call hcall
    cases hcall

end State

open State in
/-- The posted flag and the reclamation of slots. Take any run of the reactor thread, the executor
threads and the threads that register and deregister, in which no event is posted for an entry that
`RegisterImpl()` is writing and no operation is started whose entry is not valid any more. In every
state reached an entry is posted exactly while an operation of its tag is queued or executing, and
`FindFreeOperationSlot()` finds the first slot without a registration and without an operation. -/
theorem slots_reclaimed {s : State} (hs : machine.ReachableIn Unleaked s) : s.Reclaimed := by
  obtain ⟨hinv, hposted, hused⟩ : s.Inv ∧ s.PostedOk ∧ s.UsedOk := by
    refine hs.invariant (I := fun s => s.Inv ∧ s.PostedOk ∧ s.UsedOk) ?_ ?_
    · rintro s ⟨size, rfl⟩
      exact ⟨Inv.init size, posted_used_init size⟩
    · rintro s a s' ⟨hinv, hposted, hused⟩ ⟨hundisturbed, hvalid⟩ hs'
      exact ⟨hinv.step hundisturbed hs', posted_used_step hposted hused hvalid hs'⟩
  exact hposted.reclaimed hused hinv

open State in
/-- An entry is deregistered while its handler is running. It stays posted until the handler
returns, and then its slot is found again. -/
theorem slots_reclaimed_deregistered_in_callback :
    ∃ s, machine.ReachableIn Unleaked s ∧ (s.reactor.operations 0).valid = false ∧
      s.reactor.size = 1 ∧ (s.reactor.findFreeOperationSlot 6).2 = .ok 0 ∧ s.Reclaimed := by
  have hs := ToMathlib.Machine.reachableIn_get_run (M := machine) (C := Unleaked)
    (s := { reactor := { size := 1 } })
    (l := List.flatten [[.openFd 5, .register 5 readEdge], List.replicate 9 (.registerStep true),
      [.wait [(5, EPOLLIN)], .handleEvent, .begin 0, .deregister 0 true, .finish 0 (some 0)]])
    ⟨1, rfl⟩ (by decide)
  exact ⟨_, hs, by decide, by decide, by decide, slots_reclaimed hs⟩

open State in
/-- An entry is deregistered while its operation is queued. The operation returns early, no
operation is left, and the entry stays posted: the only slot of the table is lost. -/
theorem slots_reclaimed_deregistered_while_queued :
    ∃ s, machine.Reachable s ∧ s.queued = [] ∧ s.executing = [] ∧ s.registering = none ∧
      (s.reactor.operations 0).handlerPosted = true ∧ s.reactor.size = 1 ∧
      (s.reactor.findFreeOperationSlot 6).2 = .error .capacityExceeded ∧ ¬ s.Reclaimed := by
  have hs := ToMathlib.Machine.reachableIn_get_run (M := machine)
    (C := ToMathlib.Machine.Always) (s := { reactor := { size := 1 } })
    (l := List.flatten [[.openFd 5, .register 5 readEdge], List.replicate 9 (.registerStep true),
      [.wait [(5, EPOLLIN)], .handleEvent, .deregister 0 true, .begin 0]]) ⟨1, rfl⟩ (by decide)
  refine ⟨_, hs, by decide, by decide, by decide, by decide, by decide, by decide, fun h => ?_⟩
  exact absurd ((h.posted 0).mp (by decide)) (by decide)

end Asrt.Reactor.LifeCycle
