import Asrt.Reactor.IoJobs
import Asrt.ToMathlib.UpdateSum

/-!
# I/O job accounting

`job_count_` counts one job for an entry with pending operations and one for every operation that
carries a job, besides the jobs that are not I/O. The single flag `async_operation_ongoing_` keeps
this balance only as long as all that is pending on an entry is reported at once: a report of one
direction clears the flag and takes the job of both, and `OnJobCompletion()` after it settles a job
that the other direction still needs. `Balanced` lists what each step has to respect, and
`io_job_accounting` proves the balance for every run that respects it.

All facts about a tag are collected in `TagOk`, over the entry, the ghost state and how often the
tag is queued and executing; a step changes one tag, so `Inv.update` leaves one `TagOk` to prove.
-/

namespace Asrt.Reactor.IoJobs

open ToMathlib (sum_update_add_of_mem)

variable {H : Type}

/-- What holds of a tag that is queued `q` times and executing `e` times. -/
structure TagOk (size tag : ℕ) (entry : OperationEntry H) (g : Ghost) (q e : ℕ) : Prop where
  /-- The tag is in the table. -/
  inTable : 0 < q + e ∨ entry.valid = true → tag < size
  /-- There is at most one operation, and only while the entry is posted. -/
  posted : q + e ≤ entry.handlerPosted.toNat
  /-- A job is carried by an executing operation, or by a queued one of a deregistered entry. -/
  carried : g.carries = true → 0 < e ∨ 0 < q ∧ entry.valid = false
  /-- The queued operation of a deregistered entry carries a job. -/
  orphan : 0 < q → entry.valid = false → g.carries = true
  /-- A deregistered entry has no pending operations. -/
  unregistered : entry.valid = false → g.pending = false
  /-- The ongoing flag stands for pending operations, unless the entry was deregistered and its slot
  can not be used again. -/
  ongoing : entry.asyncOperationOngoing = true → g.pending = true ∨
    entry.valid = false ∧ entry.handlerPosted = true ∧ e = 0

namespace TagOk

variable {size tag q e : ℕ} {entry : OperationEntry H} {g : Ghost}

/-- An operation of a registered entry that carries a job is executing. -/
theorem executing_of_carries (h : TagOk size tag entry g q e) (hvalid : entry.valid = true)
    (hcarries : g.carries = true) : 0 < e := by
  rcases h.carried hcarries with he | ⟨-, hv⟩
  · exact he
  · rw [hvalid] at hv
    cases hv

/-- The ongoing flag of a registered entry stands for a pending operation. -/
theorem pending_of_ongoing (h : TagOk size tag entry g q e) (hvalid : entry.valid = true)
    (hongoing : entry.asyncOperationOngoing = true) : g.pending = true := by
  rcases h.ongoing hongoing with hp | ⟨hv, -, -⟩
  · exact hp
  · rw [hvalid] at hv
    cases hv

end TagOk

namespace Ghost

variable {g : Ghost}

@[simp] theorem pending_start (g : Ghost) (d : Direction) : (g.start d).pending = true := by
  cases d <;> simp [start, pending]

@[simp] theorem carries_start (g : Ghost) (d : Direction) : (g.start d).carries = g.carries := by
  cases d <;> rfl

/-- A deregistration keeps the jobs of a tag whose operation did not carry one already. -/
theorem load_deregister (h : g.pending = true → g.carries = false) :
    g.deregister.load = g.load := by
  rcases g with ⟨read, write, carries⟩
  -- two directions share one job, so the cases differ only in whether one is pending
  cases read <;> cases write <;> cases carries <;> simp_all [load, deregister, pending]

/-- A report that hits all pending operations or none keeps the jobs of a tag whose operation did
not carry one already. -/
theorem load_report {reported : Events} (hcarries : g.carries = false)
    (h : (g.report reported).pending = false ∨ g.hit reported = false) :
    (g.report reported).load = g.load := by
  rcases g with ⟨read, write, carries⟩
  cases read <;> cases write <;> cases hr : reported.hasReadEvent <;>
    cases hw : reported.hasWriteEvent <;> simp_all [load, report, hit, pending]

end Ghost

namespace State

/-- The number of outstanding I/O jobs. -/
def outstanding (σ : State H) : ℕ :=
  ∑ tag ∈ Finset.range σ.reactor.size, (σ.ghost tag).load + σ.returned

/-- The invariant: the balance of the job count, and the facts about every tag. -/
structure Inv (σ : State H) : Prop where
  balance : σ.reactor.jobCount = σ.otherJobs + σ.outstanding
  tag : ∀ tag, TagOk σ.reactor.size tag (σ.reactor.operations tag) (σ.ghost tag)
    (σ.queued.count tag) (σ.executing.count tag)

/-- What a step has to respect for the balance, besides that one more job fits the counter: an
operation is started next to a pending one only while the flag is set; an operation that runs
reports something, and of the pending operations all or none; a handler ignores an event exactly
once if nothing pending was reported, and never otherwise; an entry is deregistered with a pending
operation exactly if its operation is queued. -/
def Balanced (σ : State H) (a : Action H) : Prop :=
  σ.otherJobs + σ.outstanding + 1 < 2 ^ 32 ∧
  match a with
  | .start tag _ _ =>
    (σ.ghost tag).pending = true → (σ.reactor.operations tag).asyncOperationOngoing = true
  | .begin =>
    ∀ tag ∈ σ.queued.head?, (σ.reactor.operations tag).valid = true →
      (σ.eventsToReport tag).empty = false ∧
      (((σ.ghost tag).report (σ.eventsToReport tag)).pending = false ∨
        (σ.ghost tag).hit (σ.eventsToReport tag) = false)
  | .ignore tag _ => (σ.ghost tag).carries = false
  | .finish tag => (σ.ghost tag).carries = true
  | .deregister tag _ => (σ.ghost tag).pending = true ↔ tag ∈ σ.queued
  | _ => True

instance (σ : State H) : (a : Action H) → Decidable (σ.Balanced a)
  | .start _ _ _ => inferInstanceAs (Decidable (_ ∧ (_ → _)))
  | .begin => inferInstanceAs (Decidable (_ ∧ ∀ _ ∈ _, _))
  | .ignore _ _ | .finish _ => inferInstanceAs (Decidable (_ ∧ _ = _))
  | .deregister _ _ => inferInstanceAs (Decidable (_ ∧ (_ ↔ _)))
  | .openFd _ | .register _ _ _ _ | .event _ | .complete | .otherArrival | .otherCompletion =>
    inferInstanceAs (Decidable (_ ∧ True))

variable {σ σ' : State H} {tag : HandlerTag} {entry : OperationEntry H} {g : Ghost}

variable (tag) in
/-- A step that changes one tag keeps the invariant if the job count follows the jobs of the tag and
the facts about the tag hold again. -/
theorem Inv.update (h : σ.Inv) (htag : tag < σ.reactor.size)
    (hsize : σ'.reactor.size = σ.reactor.size)
    (hops : σ'.reactor.operations = Function.update σ.reactor.operations tag entry)
    (hghost : σ'.ghost = Function.update σ.ghost tag g)
    (hother : σ'.otherJobs = σ.otherJobs)
    (hqueued : ∀ u, u ≠ tag → σ'.queued.count u = σ.queued.count u)
    (hexecuting : ∀ u, u ≠ tag → σ'.executing.count u = σ.executing.count u)
    (hbalance : σ'.reactor.jobCount + ((σ.ghost tag).load + σ.returned) =
      σ.reactor.jobCount + (g.load + σ'.returned))
    (hok : TagOk σ.reactor.size tag entry g (σ'.queued.count tag) (σ'.executing.count tag)) :
    σ'.Inv := by
  refine ⟨?_, fun u => ?_⟩
  · have hold := h.balance
    have hsum := sum_update_add_of_mem (ι := ℕ) Ghost.load σ.ghost (Finset.mem_range.mpr htag) g
    simp only [outstanding, hghost, hsize, hother] at hold ⊢
    omega
  · rw [hops, hghost, hsize]
    by_cases hu : u = tag
    · subst hu; simpa using hok
    · rw [Function.update_of_ne hu, Function.update_of_ne hu, hqueued u hu, hexecuting u hu]
      exact h.tag u

/-- The jobs of a tag in the table are among the outstanding ones. -/
theorem load_le_outstanding (htag : tag < σ.reactor.size) :
    (σ.ghost tag).load + σ.returned ≤ σ.outstanding := by
  have hle : (σ.ghost tag).load ≤ ∑ u ∈ Finset.range σ.reactor.size, (σ.ghost u).load :=
    Finset.single_le_sum (f := fun u => (σ.ghost u).load) (fun _ _ => Nat.zero_le _)
      (Finset.mem_range.mpr htag)
  exact Nat.add_le_add_right hle _

/-! ## The steps -/

/-- A step that changes neither the entries nor the ghost state keeps the invariant if the job count
follows the other jobs and the returned operations. -/
theorem Inv.counters (h : σ.Inv) (hsize : σ'.reactor.size = σ.reactor.size)
    (hops : σ'.reactor.operations = σ.reactor.operations) (hghost : σ'.ghost = σ.ghost)
    (hqueued : σ'.queued = σ.queued) (hexecuting : σ'.executing = σ.executing)
    (hbalance : σ'.reactor.jobCount + (σ.otherJobs + σ.returned) =
      σ.reactor.jobCount + (σ'.otherJobs + σ'.returned)) : σ'.Inv := by
  refine ⟨?_, fun u => ?_⟩
  · have hold := h.balance
    simp only [outstanding, hghost, hsize] at hold ⊢
    omega
  · rw [hops, hghost, hsize, hqueued, hexecuting]
    exact h.tag u

/-- A registration takes a slot about which nothing is known any more. -/
theorem Inv.register (h : σ.Inv) {fd : NativeHandle} {events : Events} {handler : H}
    {resources : Bool} (hio : events.hasIoEvent = true) :
    State.Inv { σ with
      reactor := (σ.reactor.registerImpl .ioEvent fd events handler resources).1 } := by
  rcases hreg : σ.reactor.registerImpl .ioEvent fd events handler resources with ⟨reactor, res⟩
  cases res with
  | error ec =>
    obtain ⟨used, rfl⟩ := EpollReactor.registerImpl_error hreg
    exact h.counters rfl rfl rfl rfl rfl rfl
  | ok tag =>
    obtain ⟨hlt, hvalid, hposted, used, rfl⟩ := EpollReactor.registerImpl_ok hio hreg
    have hold := h.tag tag
    have hpending := hold.unregistered hvalid
    -- a slot that is not posted has no operation, and so no job is left from its last user
    have hcount : σ.queued.count tag + σ.executing.count tag = 0 := by
      have := hold.posted
      rw [hposted, Bool.toNat_false] at this
      omega
    have hcarries : (σ.ghost tag).carries = false := by
      refine Bool.eq_false_iff.mpr fun hc => ?_
      rcases hold.carried hc with he | ⟨hq, -⟩ <;> omega
    refine h.update tag (g := σ.ghost tag) hlt rfl rfl (Function.update_eq_self _ _).symm
      rfl (fun _ _ => rfl) (fun _ _ => rfl) rfl ⟨fun _ => hlt, ?_, ?_, ?_, ?_, ?_⟩
    · simp [EpollReactor.registeredEntry, hcount]
    · simp [hcarries]
    · simp [EpollReactor.registeredEntry]
    · simp [EpollReactor.registeredEntry]
    · -- the ongoing flag of the last user cannot have survived in a slot that is not posted
      intro hongoing
      rcases hold.ongoing hongoing with hp | ⟨-, hp, -⟩
      · exact .inl hp
      · rw [hposted] at hp
        cases hp

/-- A deregistration leaves the job of the pending operations to the queued operation. -/
theorem Inv.deregister (h : σ.Inv) {closeOnDeregister : Bool} {reactor : EpollReactor H}
    (hC : (σ.ghost tag).pending = true ↔ tag ∈ σ.queued)
    (hreg : σ.reactor.derigsterImpl tag closeOnDeregister = (reactor, .ok ())) :
    ({ σ with reactor }.setGhost tag (σ.ghost tag).deregister).Inv := by
  obtain ⟨hvalid, kernel, handler, release, close, rfl⟩ := EpollReactor.derigsterImpl_ok hreg
  have hold := h.tag tag
  have hlt := hold.inTable (.inr hvalid)
  have hle := Bool.toNat_le (σ.reactor.operations tag).handlerPosted
  have hposted := hold.posted
  -- a queued operation of a registered entry carries nothing yet
  have hcarries : (σ.ghost tag).pending = true → (σ.ghost tag).carries = false := by
    intro hp
    have hq := List.count_pos_iff.mpr (hC.mp hp)
    refine Bool.eq_false_iff.mpr fun hc => ?_
    have he := hold.executing_of_carries hvalid hc
    omega
  refine h.update tag (g := (σ.ghost tag).deregister) hlt rfl rfl rfl rfl
    (fun _ _ => rfl) (fun _ _ => rfl) ?_ ⟨fun _ => hlt, hposted, ?_, ?_, ?_, ?_⟩
  · simp only [setGhost, Ghost.load_deregister hcarries]
    rfl
  · intro hc
    simp only [Ghost.deregister, Bool.or_eq_true] at hc
    rcases hc with hc | hp
    · exact .inl (hold.executing_of_carries hvalid hc)
    -- the job of what was pending goes to the queued operation
    · exact .inr ⟨List.count_pos_iff.mpr (hC.mp hp), rfl⟩
  · intro hq _
    simp [Ghost.deregister, hC.mpr (List.count_pos_iff.mp hq)]
  · intro _
    rfl
  · -- the flag survives, but the slot is not free before the queued operation has run
    intro hongoing
    have hq := List.count_pos_iff.mpr (hC.mp (hold.pending_of_ongoing hvalid hongoing))
    refine .inr ⟨rfl, ?_, ?_⟩
    · refine Bool.eq_true_of_not_eq_false fun hfalse => ?_
      rw [hfalse, Bool.toNat_false] at hposted
      omega
    · simp only [setGhost]
      omega

/-- Starting an operation adds a job exactly if none is pending. -/
theorem Inv.start (h : σ.Inv) {direction : Direction} {resources : Bool}
    (hbound : σ.otherJobs + σ.outstanding + 1 < 2 ^ 32)
    (hvalid : (σ.reactor.operations tag).valid = true)
    (hC : (σ.ghost tag).pending = true →
      (σ.reactor.operations tag).asyncOperationOngoing = true) :
    ({ σ with
      reactor := σ.reactor.onStartOfOperation tag direction.opType resources }.setGhost tag
        ((σ.ghost tag).start direction)).Inv := by
  obtain ⟨interest, -, heq⟩ :=
    EpollReactor.onStartOfOperation_eq σ.reactor tag direction.opType resources
  rw [EpollReactor.markOperationStarted_eq] at heq
  rw [heq]
  have hold := h.tag tag
  have hlt := hold.inTable (.inr hvalid)
  have hnot : ¬ (σ.reactor.operations tag).valid = false := by simp [hvalid]
  have hbalance := h.balance
  refine h.update tag (g := (σ.ghost tag).start direction) hlt rfl rfl rfl rfl
    (fun _ _ => rfl) (fun _ _ => rfl) ?_ ⟨fun _ => hlt, hold.posted, ?_, ?_, ?_, ?_⟩
  · simp only [setGhost, EpollReactor.setEntry, Ghost.load, Ghost.pending_start,
      Ghost.carries_start, Bool.toNat_true]
    cases hongoing : (σ.reactor.operations tag).asyncOperationOngoing with
    | true =>
      -- the flag is set, so something is pending and its job is shared
      simp [hold.pending_of_ongoing hvalid hongoing]
    | false =>
      -- nothing is pending, and the new job is the one that `OnJobArrival()` counts
      have hp : (σ.ghost tag).pending = false := by
        refine Bool.eq_false_iff.mpr fun hp => ?_
        rw [hC hp] at hongoing
        cases hongoing
      rw [Executor.fetchAdd_eq (by omega)]
      simp [hp]
      omega
  · exact fun hc => hold.carried ((Ghost.carries_start _ _).symm.trans hc)
  · exact fun _ hv => absurd hv hnot
  · exact fun hv => absurd hv hnot
  · exact fun _ => .inl (Ghost.pending_start _ _)

/-- An event queues an operation that carries no job. -/
theorem Inv.event (h : σ.Inv) {event : EpollEvent} (htag : event.tag < σ.reactor.size) :
    State.Inv { σ with
      reactor := (σ.reactor.handleSingleEvent event []).1
      queued := σ.queued ++
        if (σ.reactor.handleSingleEvent event []).2 = [] then [] else [event.tag] } := by
  obtain ⟨posted, heq, hposted⟩ := EpollReactor.handleSingleEvent_eq σ.reactor event []
  rw [heq]
  have hold := h.tag event.tag
  cases posted with
  | false =>
    refine h.update event.tag (g := σ.ghost event.tag) htag rfl rfl
      (Function.update_eq_self _ _).symm rfl (by simp) (fun _ _ => rfl) rfl
      ⟨fun _ => htag, ?_, ?_, ?_, hold.unregistered, ?_⟩
    · simpa using hold.posted
    · simpa using hold.carried
    · simpa using hold.orphan
    · simpa using hold.ongoing
  | true =>
    -- an event is posted only for a valid entry that is not posted
    obtain ⟨hvalid, hfalse⟩ := hposted rfl
    have hcount := hold.posted
    rw [hfalse, Bool.toNat_false] at hcount
    refine h.update event.tag (g := σ.ghost event.tag) htag rfl rfl
      (Function.update_eq_self _ _).symm rfl (fun u hu => ?_) (fun _ _ => rfl) rfl
      ⟨fun _ => htag, ?_, ?_, ?_, hold.unregistered, ?_⟩
    · simp [Ne.symm hu]
    · simp
      omega
    · exact fun hc => .inl (hold.executing_of_carries hvalid hc)
    · simp [hvalid]
    · exact fun hongoing => .inl (hold.pending_of_ongoing hvalid hongoing)

/-- An executing handler that ignores an event makes its operation carry a job. -/
theorem Inv.ignore (h : σ.Inv) (hbound : σ.otherJobs + σ.outstanding + 1 < 2 ^ 32)
    (hexec : tag ∈ σ.executing) (hC : (σ.ghost tag).carries = false) (ev : Events) :
    ({ σ with reactor := σ.reactor.onEventIgnored tag ev }.setGhost tag
      { σ.ghost tag with carries := true }).Inv := by
  have hold := h.tag tag
  have hpos := List.count_pos_iff.mpr hexec
  have hlt := hold.inTable (.inl (by omega))
  have hbalance := h.balance
  refine h.update tag hlt rfl rfl rfl rfl (fun _ _ => rfl) (fun _ _ => rfl) ?_
    ⟨fun _ => hlt, hold.posted, fun _ => .inl hpos, fun _ _ => rfl, hold.unregistered,
      hold.ongoing⟩
  simp only [setGhost, EpollReactor.onEventIgnored, EpollReactor.onJobArrival,
    EpollReactor.setEntry, Ghost.load, Ghost.pending, hC]
  rw [Executor.fetchAdd_eq (by omega)]
  simp
  omega

/-- An operation that begins takes the job of what it reports, or returns at once with the job of
its deregistered entry. -/
theorem Inv.beginOperation (h : σ.Inv) {rest : List HandlerTag} (hq : σ.queued = tag :: rest)
    (hC : (σ.reactor.operations tag).valid = true → (σ.eventsToReport tag).empty = false ∧
      (((σ.ghost tag).report (σ.eventsToReport tag)).pending = false ∨
        (σ.ghost tag).hit (σ.eventsToReport tag) = false)) :
    (σ.beginOperation tag rest).Inv := by
  have hold := h.tag tag
  have hcount : σ.queued.count tag = rest.count tag + 1 := by simp [hq]
  have hother (u : HandlerTag) (hu : u ≠ tag) : rest.count u = σ.queued.count u := by
    simp [hq, Ne.symm hu]
  have hlt := hold.inTable (.inl (by omega))
  have hle := Bool.toNat_le (σ.reactor.operations tag).handlerPosted
  have hposted := hold.posted
  unfold State.beginOperation
  cases hvalid : (σ.reactor.operations tag).valid with
  -- deregistered: the operation returns at once, with the job it was left
  | false =>
    have hcarries := hold.orphan (by omega) hvalid
    have hpending := hold.unregistered hvalid
    rw [EpollReactor.beginOperation_of_not_valid hvalid]
    refine h.update tag hlt rfl (Function.update_eq_self _ _).symm rfl rfl hother
      (fun _ _ => rfl) ?_ ⟨fun _ => hlt, ?_, by simp, ?_, fun _ => hpending, hold.ongoing⟩
    · simp only [setGhost, Ghost.load, Ghost.pending, hcarries]
      simp
      omega
    · simp only [setGhost]
      omega
    · simp only [setGhost]
      omega
  | true =>
    obtain ⟨hreport, hall⟩ := hC hvalid
    have hnot : ¬ (σ.reactor.operations tag).valid = false := by simp [hvalid]
    have hcarries : (σ.ghost tag).carries = false := by
      refine Bool.eq_false_iff.mpr fun hc => ?_
      have he := hold.executing_of_carries hvalid hc
      omega
    rw [EpollReactor.beginOperation_of_report hvalid hreport]
    refine h.update tag hlt rfl rfl rfl rfl hother (fun u hu => ?_) ?_
      ⟨fun _ => hlt, ?_, ?_, fun _ hv => absurd hv hnot, fun hv => absurd hv hnot, by simp⟩
    · simp [setGhost, Ne.symm hu]
    · have hload := Ghost.load_report hcarries hall
      simp only [eventsToReport] at hload
      simp only [setGhost, EpollReactor.setEntry, hload]
    · simp only [setGhost, List.count_cons_self]
      omega
    · exact fun _ => .inl (by simp [setGhost])

/-- An operation that returns leaves the job it carries to the executor. -/
theorem Inv.finish (h : σ.Inv) (hexec : tag ∈ σ.executing)
    (hC : (σ.ghost tag).carries = true) :
    ({ σ with
      reactor := σ.reactor.finishOperation tag
      executing := σ.executing.erase tag
      returned := σ.returned + 1 }.setGhost tag { σ.ghost tag with carries := false }).Inv := by
  have hold := h.tag tag
  have hpos := List.count_pos_iff.mpr hexec
  have hle := Bool.toNat_le (σ.reactor.operations tag).handlerPosted
  have hposted := hold.posted
  have hlt := hold.inTable (.inl (by omega))
  -- the operation was the only one of its entry
  have hzero : (σ.executing.erase tag).count tag = 0 := by
    rw [List.count_erase_self]
    omega
  rw [EpollReactor.finishOperation_eq]
  refine h.update tag hlt rfl rfl rfl rfl (fun _ _ => rfl)
    (fun u hu => List.count_erase_of_ne hu) ?_
    ⟨fun _ => hlt, ?_, by simp, ?_, hold.unregistered, ?_⟩
  · simp only [setGhost, EpollReactor.setEntry, Ghost.load, Ghost.pending, hC]
    simp
    omega
  · simp only [setGhost, hzero]
    simp
    omega
  · simp only [setGhost]
    omega
  · intro hongoing
    rcases hold.ongoing hongoing with hp | ⟨-, -, hidle⟩
    · exact .inl hp
    · omega

/-- Every step that respects the conditions keeps the invariant. -/
theorem Inv.step (h : σ.Inv) {a : Action H} (hC : σ.Balanced a) (hσ' : σ.step a = some σ') :
    σ'.Inv := by
  obtain ⟨hbound, hC⟩ := hC
  have hbalance := h.balance
  cases a with
  | openFd fd =>
    simp only [State.step] at hσ'
    obtain rfl := Option.some.inj hσ'
    exact h.counters rfl rfl rfl rfl rfl rfl
  | register fd events handler resources =>
    simp only [State.step] at hσ'
    split at hσ'
    · rename_i hio
      obtain rfl := Option.some.inj hσ'
      exact h.register hio
    · cases hσ'
  | deregister tag closeOnDeregister =>
    simp only [State.step] at hσ'
    split at hσ'
    · rename_i hreg
      obtain rfl := Option.some.inj hσ'
      exact h.deregister hC hreg
    · rename_i hreg
      obtain rfl := Option.some.inj hσ'
      rw [EpollReactor.derigsterImpl_error hreg]
      exact h
  | start tag direction resources =>
    simp only [State.step] at hσ'
    split at hσ'
    · rename_i hvalid
      obtain rfl := Option.some.inj hσ'
      exact h.start hbound hvalid hC
    · cases hσ'
  | event event =>
    simp only [State.step] at hσ'
    split at hσ'
    · rename_i htag
      obtain rfl := Option.some.inj hσ'
      exact h.event htag
    · cases hσ'
  | begin =>
    simp only [State.step] at hσ'
    split at hσ'
    · rename_i tag rest hq
      obtain rfl := Option.some.inj hσ'
      exact h.beginOperation hq (hC tag (by rw [hq]; rfl))
    · cases hσ'
  | ignore tag ev =>
    simp only [State.step] at hσ'
    split at hσ'
    · rename_i hexec
      obtain rfl := Option.some.inj hσ'
      exact h.ignore hbound hexec hC ev
    · cases hσ'
  | finish tag =>
    simp only [State.step] at hσ'
    split at hσ'
    · rename_i hexec
      obtain rfl := Option.some.inj hσ'
      exact h.finish hexec hC
    · cases hσ'
  | complete =>
    simp only [State.step] at hσ'
    split at hσ'
    · rename_i hret
      obtain rfl := Option.some.inj hσ'
      -- a job that has returned is still outstanding, so the counter is not zero
      have hle : σ.returned ≤ σ.outstanding := Nat.le_add_left _ _
      rw [EpollReactor.onJobCompletion_eq (by omega) (by omega)]
      refine h.counters rfl rfl rfl rfl rfl ?_
      simp only
      omega
    · cases hσ'
  | otherArrival =>
    simp only [State.step] at hσ'
    obtain rfl := Option.some.inj hσ'
    rw [EpollReactor.onJobArrival_eq (by omega)]
    refine h.counters rfl rfl rfl rfl rfl ?_
    simp only
    omega
  | otherCompletion =>
    simp only [State.step] at hσ'
    split at hσ'
    · rename_i hother
      obtain rfl := Option.some.inj hσ'
      rw [EpollReactor.onJobCompletion_eq (by omega) (by omega)]
      refine h.counters rfl rfl rfl rfl rfl ?_
      simp only
      omega
    · cases hσ'

/-- The invariant holds of an empty reactor. -/
theorem Inv.init (size : ℕ) (isOpen : NativeHandle → Bool) :
    ({ reactor := { size, kernel := { isOpen } } } : State H).Inv where
  balance := by simp [outstanding, Ghost.load, Ghost.pending]
  tag tag := ⟨by simp, by simp, by simp, by simp, by simp [Ghost.pending], by simp⟩

/-- The invariant holds in every state reached by steps that respect the conditions. -/
theorem Inv.of_reachable (hσ : (machine H).ReachableIn Balanced σ) : σ.Inv :=
  hσ.invariant (fun _ ⟨size, isOpen, h⟩ => h ▸ Inv.init size isOpen)
    fun _ _ _ h hC hσ' => h.step hC hσ'

end State

open State in
/-- I/O job accounting. In every run that respects the conditions, `job_count_` is the number of
outstanding I/O jobs plus the other jobs; it is positive while an operation that was started is not
yet reported, and it is positive whenever the executor is about to call `OnJobCompletion()` after an
operation. -/
theorem io_job_accounting {σ : State H} (hσ : (machine H).ReachableIn Balanced σ) :
    σ.reactor.jobCount = σ.otherJobs + σ.outstanding ∧
    (∀ tag, (σ.ghost tag).pending = true → 1 ≤ σ.reactor.jobCount) ∧
    (0 < σ.returned → 0 < σ.reactor.jobCount) := by
  have h := Inv.of_reachable hσ
  have hbalance := h.balance
  refine ⟨hbalance, fun tag hp => ?_, fun hret => ?_⟩
  · have hold := h.tag tag
    have hvalid : (σ.reactor.operations tag).valid = true := by
      refine Bool.eq_true_of_not_eq_false fun hv => ?_
      rw [hold.unregistered hv] at hp
      cases hp
    have hle := load_le_outstanding (hold.inTable (.inr hvalid))
    have hload : 1 ≤ (σ.ghost tag).load := by simp [Ghost.load, hp]
    omega
  · have hle : σ.returned ≤ σ.outstanding := Nat.le_add_left _ _
    omega

open State in
/-- A read is started on entry `0`, its event is reported and its handler executes: the job is with
the operation. -/
theorem io_job_accounting_read :
    ∃ σ : State Unit, (machine Unit).ReachableIn Balanced σ ∧ σ.executing = [0] ∧
      σ.reactor.jobCount = σ.otherJobs + σ.outstanding := by
  have hσ := ToMathlib.Machine.reachableIn_get_run (M := machine Unit) (C := Balanced)
    (s := { reactor := { size := 1, kernel := { isOpen := fun _ => true } } })
    (l := [.register 5 .kRead () true, .start 0 .read true, .event ⟨EPOLLIN, 0⟩, .begin])
    ⟨1, fun _ => true, rfl⟩ (by decide)
  exact ⟨_, hσ, by decide, (io_job_accounting hσ).1⟩

open State in
/-- A read and a write are started on entry `0`. The read is reported and completed, the executor
counts the completion, and the job count is zero while the write is pending. -/
theorem io_job_accounting_two_directions :
    ∃ σ : State Unit, (machine Unit).Reachable σ ∧ (σ.ghost 0).pending = true ∧
      σ.reactor.jobCount = 0 ∧ σ.reactor.jobCount ≠ σ.otherJobs + σ.outstanding := by
  have hσ := ToMathlib.Machine.reachableIn_get_run (M := machine Unit)
    (C := ToMathlib.Machine.Always)
    (s := { reactor := { size := 1, kernel := { isOpen := fun _ => true } } })
    (l := [.register 5 .kRead () true, .start 0 .read true, .start 0 .write true,
      .event ⟨EPOLLIN, 0⟩, .begin, .finish 0, .complete])
    ⟨1, fun _ => true, rfl⟩ (by decide)
  exact ⟨_, hσ, by decide, by decide, by decide⟩

end Asrt.Reactor.IoJobs
