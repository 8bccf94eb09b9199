import Asrt.Reactor.Calls

/-!
# Monitored events and the interest list

What an entry monitors is kept twice: in `monitored_events_`, and in the mask that epoll holds for
its descriptor. Reading is always part of the mask. The other changes need a call of epoll, and most
functions either make it before they change the entry or change nothing that epoll would have to
know. `OnStartOfOperation()` changes the entry first, and only logs an error of epoll.

## Main definitions

* `Events.Covers`: a mask has the read, write and edge events of another.
* `EpollReactor.Covered`: epoll watches for everything that is monitored.
* `machine`: registration, the start and the execution of operations, and changes of the monitored
  events.

## Main results

* `covered_iff`: the runs in which every step leaves everything monitored covered.
-/

namespace Asrt.Reactor

namespace Events

variable {e ev k m m' : Events}

/-! ## Single events -/

/-- The mask is a single bit. -/
def IsSingle (ev : Events) : Prop := ∃ i < 32, ev.eventMask = BitVec.twoPow 32 i

theorem isSingle_kRead : kRead.IsSingle := ⟨0, by decide, rfl⟩

theorem isSingle_kWrite : kWrite.IsSingle := ⟨2, by decide, rfl⟩

theorem isSingle_kEdge : kEdge.IsSingle := ⟨31, by decide, rfl⟩

/-- For a single bit, `HasEvent()` reads that bit. -/
theorem hasEvent_eq_getLsbD {i : ℕ} (hi : i < 32) (hev : ev.eventMask = BitVec.twoPow 32 i) :
    e.hasEvent ev = e.eventMask.getLsbD i := by
  unfold hasEvent
  rw [hev, BitVec.and_twoPow]
  cases hbit : e.eventMask.getLsbD i with
  | false => simp
  | true =>
    have hne : BitVec.twoPow 32 i ≠ 0#32 := by
      intro hzero
      have hget := congrArg (BitVec.getLsbD · i) hzero
      simp [hi] at hget
    simpa using hne

theorem IsSingle.hasEvent_union (hev : ev.IsSingle) (m m' : Events) :
    (m.union m').hasEvent ev = (m.hasEvent ev || m'.hasEvent ev) := by
  obtain ⟨i, hi, hev⟩ := hev
  simp only [hasEvent_eq_getLsbD hi hev, union, add, BitVec.getLsbD_or]

theorem IsSingle.hasEvent_intersection (hev : ev.IsSingle) (m m' : Events) :
    (m.intersection m').hasEvent ev = (m.hasEvent ev && m'.hasEvent ev) := by
  obtain ⟨i, hi, hev⟩ := hev
  simp only [hasEvent_eq_getLsbD hi hev, intersection, ofMask, BitVec.getLsbD_and]

theorem IsSingle.hasEvent_consume (hev : ev.IsSingle) (m m' : Events) :
    (m.consume m').hasEvent ev = (m.hasEvent ev && !m'.hasEvent ev) := by
  obtain ⟨i, hi, hev⟩ := hev
  simp [hasEvent_eq_getLsbD hi hev, consume, hi]

theorem IsSingle.hasEvent_ofMask_or (hev : ev.IsSingle) (x y : BitVec 32) :
    (ofMask (x ||| y)).hasEvent ev = ((ofMask x).hasEvent ev || (ofMask y).hasEvent ev) := by
  obtain ⟨i, hi, hev⟩ := hev
  simp only [hasEvent_eq_getLsbD hi hev, ofMask, BitVec.getLsbD_or]

/-! ## Covering -/

/-- Every read, write and edge event of `m` is one of `k`. -/
structure Covers (k m : Events) : Prop where
  read : m.hasEvent kRead = true → k.hasEvent kRead = true
  write : m.hasEvent kWrite = true → k.hasEvent kWrite = true
  edge : m.hasEvent kEdge = true → k.hasEvent kEdge = true

/-- A mask with more events covers them. -/
theorem Covers.of_hasEvent
    (h : ∀ ev, ev.IsSingle → m.hasEvent ev = true → k.hasEvent ev = true) : Covers k m :=
  ⟨h _ isSingle_kRead, h _ isSingle_kWrite, h _ isSingle_kEdge⟩

theorem Covers.trans (h : Covers k m) (h' : Covers m m') : Covers k m' :=
  ⟨h.read ∘ h'.read, h.write ∘ h'.write, h.edge ∘ h'.edge⟩

/-- What is added must be covered as well. -/
theorem Covers.union (h : Covers k m) (h' : Covers k m') : Covers k (m.union m') where
  read hm := by
    rw [isSingle_kRead.hasEvent_union, Bool.or_eq_true] at hm
    exact hm.elim h.read h'.read
  write hm := by
    rw [isSingle_kWrite.hasEvent_union, Bool.or_eq_true] at hm
    exact hm.elim h.write h'.write
  edge hm := by
    rw [isSingle_kEdge.hasEvent_union, Bool.or_eq_true] at hm
    exact hm.elim h.edge h'.edge

theorem covers_union_left (m m' : Events) : Covers (m.union m') m :=
  .of_hasEvent fun ev hev hm => by rw [hev.hasEvent_union, hm, Bool.true_or]

theorem covers_union_right (m m' : Events) : Covers (m.union m') m' :=
  .of_hasEvent fun ev hev hm => by rw [hev.hasEvent_union, hm, Bool.or_true]

theorem covers_consume (m m' : Events) : Covers m (m.consume m') :=
  .of_hasEvent fun ev hev hm => by
    rw [hev.hasEvent_consume, Bool.and_eq_true] at hm
    exact hm.1

theorem covers_intersection_left (m m' : Events) : Covers m (m.intersection m') :=
  .of_hasEvent fun ev hev hm => by
    rw [hev.hasEvent_intersection, Bool.and_eq_true] at hm
    exact hm.1

theorem covers_intersection_right (m m' : Events) : Covers m' (m.intersection m') :=
  .of_hasEvent fun ev hev hm => by
    rw [hev.hasEvent_intersection, Bool.and_eq_true] at hm
    exact hm.2

/-- The mask that epoll is given covers the events it is made for, and reading. -/
theorem covers_ofMask_or (m : Events) (x y : BitVec 32) :
    Covers (ofMask (m.eventMask ||| x ||| y)) m :=
  .of_hasEvent fun ev hev hm => by
    have hmask : (ofMask m.eventMask).hasEvent ev = true := hm
    rw [hev.hasEvent_ofMask_or, hev.hasEvent_ofMask_or, hmask, Bool.true_or, Bool.true_or]

/-- Reading is covered by every mask with the read event. -/
theorem covers_kRead (h : k.hasEvent kRead = true) : Covers k kRead :=
  ⟨fun _ => h, fun hm => absurd hm (by decide), fun hm => absurd hm (by decide)⟩

/-- Writing likewise. -/
theorem covers_kWrite (h : k.hasEvent kWrite = true) : Covers k kWrite :=
  ⟨fun hm => absurd hm (by decide), fun _ => h, fun hm => absurd hm (by decide)⟩

end Events

namespace EpollReactor

variable {H : Type} {r r' : EpollReactor H} {tag : HandlerTag} {event : EpollEvent}

/-- The events that epoll watches for. -/
abbrev watched (event : EpollEvent) : Events := .ofMask event.events

/-- For every registered entry, epoll watches for the read, write and edge events that the entry
monitors. -/
def Covered (r : EpollReactor H) : Prop :=
  ∀ tag, (r.operations tag).valid = true →
    ∃ event, r.kernel.interest (r.operations tag).ioSource = some event ∧
      (watched event).Covers (r.operations tag).monitoredEvents

/-- The descriptor of the entry is in the interest list with the entry's tag, for reading at least.
-/
structure InList (r : EpollReactor H) (tag : HandlerTag) (event : EpollEvent) : Prop where
  isOpen : r.kernel.isOpen (r.operations tag).ioSource = true
  interest : r.kernel.interest (r.operations tag).ioSource = some event
  tag_eq : event.tag = tag
  read : (watched event).hasEvent .kRead = true

/-- The part of the invariant that no failure breaks: the descriptors of the registered entries are
in the interest list, and none is to be closed. -/
structure ListOk (r : EpollReactor H) : Prop where
  inList : ∀ tag, (r.operations tag).valid = true → ∃ event, r.InList tag event
  closeIoSource : ∀ tag, (r.operations tag).closeIoSource = false

/-- No descriptor leaves the interest list and no entry becomes valid. -/
structure KeepsList (r r' : EpollReactor H) : Prop where
  isOpen : ∀ fd, r.kernel.isOpen fd = true → r'.kernel.isOpen fd = true
  interest : r'.kernel.interest = r.kernel.interest
  valid : ∀ tag, (r'.operations tag).valid = true → (r.operations tag).valid = true ∧
    (r'.operations tag).ioSource = (r.operations tag).ioSource
  closeIoSource : ∀ tag, (r'.operations tag).closeIoSource = true →
    (r.operations tag).closeIoSource = true

/-- Besides, only reading is monitored that was not before. -/
structure Narrows (r r' : EpollReactor H) : Prop extends KeepsList r r' where
  covers : ∀ tag, (r'.operations tag).valid = true →
    ((r.operations tag).monitoredEvents.union .kRead).Covers (r'.operations tag).monitoredEvents

/-- The table is not changed. -/
theorem Narrows.of_operations (hopen : ∀ fd, r.kernel.isOpen fd = true → r'.kernel.isOpen fd = true)
    (hinterest : r'.kernel.interest = r.kernel.interest) (hops : r'.operations = r.operations) :
    Narrows r r' where
  isOpen := hopen
  interest := hinterest
  valid tag h := by
    rw [hops] at h ⊢
    exact ⟨h, rfl⟩
  closeIoSource tag h := by rw [← hops]; exact h
  covers tag _ := by
    rw [hops]
    exact Events.covers_union_left _ _

section Update

variable {entry : OperationEntry H}

/-- A change of one entry that leaves epoll alone. -/
theorem KeepsList.of_update (hkernel : r'.kernel = r.kernel)
    (hops : r'.operations = Function.update r.operations tag entry)
    (hvalid : entry.valid = true → (r.operations tag).valid = true)
    (hsource : entry.ioSource = (r.operations tag).ioSource)
    (hclose : entry.closeIoSource = true → (r.operations tag).closeIoSource = true) :
    KeepsList r r' where
  isOpen fd h := by rw [hkernel]; exact h
  interest := by rw [hkernel]
  valid u hu := by
    rw [hops] at hu ⊢
    by_cases hut : u = tag
    · subst hut
      rw [Function.update_self] at hu ⊢
      exact ⟨hvalid hu, hsource⟩
    · rw [Function.update_of_ne hut] at hu ⊢
      exact ⟨hu, rfl⟩
  closeIoSource u hu := by
    rw [hops] at hu
    by_cases hut : u = tag
    · subst hut
      rw [Function.update_self] at hu
      exact hclose hu
    · rw [Function.update_of_ne hut] at hu
      exact hu

theorem Narrows.of_update (hkernel : r'.kernel = r.kernel)
    (hops : r'.operations = Function.update r.operations tag entry)
    (hvalid : entry.valid = true → (r.operations tag).valid = true)
    (hsource : entry.ioSource = (r.operations tag).ioSource)
    (hcovers : ((r.operations tag).monitoredEvents.union .kRead).Covers entry.monitoredEvents)
    (hclose : entry.closeIoSource = true → (r.operations tag).closeIoSource = true) :
    Narrows r r' where
  toKeepsList := .of_update hkernel hops hvalid hsource hclose
  covers u _ := by
    rw [hops]
    by_cases hut : u = tag
    · subst hut
      rw [Function.update_self]
      exact hcovers
    · rw [Function.update_of_ne hut]
      exact Events.covers_union_left _ _

end Update

/-- Such a step keeps the descriptors in the interest list. -/
theorem ListOk.keepsList (h : r.ListOk) (hk : KeepsList r r') : r'.ListOk where
  inList tag htag := by
    obtain ⟨hvalid, hsource⟩ := hk.valid tag htag
    obtain ⟨event, hin⟩ := h.inList tag hvalid
    refine ⟨event, ?_, ?_, hin.tag_eq, hin.read⟩
    · rw [hsource]
      exact hk.isOpen _ hin.isOpen
    · rw [hsource, hk.interest]
      exact hin.interest
  closeIoSource tag := by
    by_contra hclose
    have hbefore := hk.closeIoSource tag (by simpa using hclose)
    simp [h.closeIoSource tag] at hbefore

/-- Such a step leaves everything covered: reading is always. -/
theorem Covered.narrows (h : r.Covered) (hok : r.ListOk) (hn : Narrows r r') : r'.Covered := by
  intro tag htag
  obtain ⟨hvalid, hsource⟩ := hn.valid tag htag
  obtain ⟨event, hint, hcov⟩ := h tag hvalid
  obtain ⟨event', hin⟩ := hok.inList tag hvalid
  -- reading is in the mask whatever the entry monitors
  obtain rfl : event = event' := Option.some.inj (hint.symm.trans hin.interest)
  refine ⟨event, by rw [hsource, hn.interest]; exact hint, ?_⟩
  exact (hcov.union (Events.covers_kRead hin.read)).trans (hn.covers tag htag)

/-- A descriptor is in the interest list for one entry only. -/
theorem ListOk.ioSource_ne (h : r.ListOk) (htag : (r.operations tag).valid = true)
    (u : HandlerTag) (hut : u ≠ tag) (hu : (r.operations u).valid = true) :
    (r.operations u).ioSource ≠ (r.operations tag).ioSource := by
  intro heq
  obtain ⟨event, hin⟩ := h.inList tag htag
  obtain ⟨event', hin'⟩ := h.inList u hu
  have hinterest := hin'.interest
  rw [heq, hin.interest] at hinterest
  -- the interest carries the tag of the entry
  apply hut
  rw [← hin.tag_eq, ← hin'.tag_eq, Option.some.inj hinterest]

section Sets

variable {fd : NativeHandle} {entry : OperationEntry H}

/-- An entry is written together with the interest in its descriptor, which no other entry has. -/
theorem ListOk.sets (h : r.ListOk) (hopen : r.kernel.isOpen fd = true)
    (hkernel : r'.kernel = { r.kernel with
      interest := Function.update r.kernel.interest fd (some event) })
    (hops : r'.operations = Function.update r.operations tag entry)
    (hother : ∀ u, u ≠ tag → (r.operations u).valid = true → (r.operations u).ioSource ≠ fd)
    (hsource : entry.ioSource = fd) (htag : event.tag = tag)
    (hread : (watched event).hasEvent .kRead = true) (hclose : entry.closeIoSource = false) :
    r'.ListOk where
  inList u hu := by
    rw [hops] at hu
    by_cases hut : u = tag
    · -- the entry that is written
      subst hut
      refine ⟨event, ?_, ?_, htag, hread⟩
      · rw [hops, hkernel, Function.update_self, hsource]
        exact hopen
      · rw [hops, hkernel, Function.update_self, hsource]
        exact Function.update_self ..
    · rw [Function.update_of_ne hut] at hu
      obtain ⟨event', hin⟩ := h.inList u hu
      refine ⟨event', ?_, ?_, hin.tag_eq, hin.read⟩
      · rw [hops, hkernel, Function.update_of_ne hut]
        exact hin.isOpen
      · rw [hops, hkernel, Function.update_of_ne hut]
        exact (Function.update_of_ne (hother u hut hu) ..).trans hin.interest
  closeIoSource u := by
    rw [hops]
    by_cases hut : u = tag
    · subst hut
      rw [Function.update_self]
      exact hclose
    · rw [Function.update_of_ne hut]
      exact h.closeIoSource u

theorem Covered.sets (h : r.Covered)
    (hkernel : r'.kernel = { r.kernel with
      interest := Function.update r.kernel.interest fd (some event) })
    (hops : r'.operations = Function.update r.operations tag entry)
    (hother : ∀ u, u ≠ tag → (r.operations u).valid = true → (r.operations u).ioSource ≠ fd)
    (hsource : entry.ioSource = fd) (hcovers : (watched event).Covers entry.monitoredEvents) :
    r'.Covered := by
  intro u hu
  rw [hops] at hu ⊢
  rw [hkernel]
  by_cases hut : u = tag
  · subst hut
    rw [Function.update_self]
    exact ⟨event, by rw [hsource]; exact Function.update_self .., hcovers⟩
  · rw [Function.update_of_ne hut] at hu ⊢
    obtain ⟨event', hint, hcov⟩ := h u hu
    exact ⟨event', (Function.update_of_ne (hother u hut hu) ..).trans hint, hcov⟩

/-- The mask that epoll is given for an entry has the read event. -/
theorem hasEvent_kRead_watched (m : Events) (tag : HandlerTag) :
    (watched ⟨m.eventMask ||| EPOLLIN ||| EPOLLPRI, tag⟩).hasEvent .kRead = true := by
  rw [watched, Events.isSingle_kRead.hasEvent_ofMask_or, Events.isSingle_kRead.hasEvent_ofMask_or]
  simp [Events.hasEvent, Events.ofMask, Events.kRead, EPOLLIN]

end Sets

/-! ## The calls -/

/-- A registration for I/O adds the descriptor with all that is monitored, or does nothing. -/
theorem ListOk.registerImpl (h : r.ListOk) {events : Events} (hio : events.hasIoEvent = true)
    (fd : NativeHandle) (handler : H) (resources : Bool) :
    (r.registerImpl .ioEvent fd events handler resources).1.ListOk ∧
      (r.Covered → (r.registerImpl .ioEvent fd events handler resources).1.Covered) := by
  rcases heq : r.registerImpl .ioEvent fd events handler resources with ⟨r₁, _ | tag⟩
  · obtain ⟨used, rfl⟩ := registerImpl_error heq
    have hn : Narrows r { r with usedOperationsEnd := used } :=
      .of_operations (fun _ h => h) rfl rfl
    exact ⟨h.keepsList hn.toKeepsList, fun hcov => hcov.narrows h hn⟩
  · obtain ⟨-, -, -, used, rfl⟩ := registerImpl_ok hio heq
    have hopen := isOpen_of_registerImpl hio heq
    -- a descriptor of the interest list would have been refused
    have hnone := interest_of_registerImpl hio heq
    have hother (u : HandlerTag) (_ : u ≠ tag) (hu : (r.operations u).valid = true) :
        (r.operations u).ioSource ≠ fd := by
      rintro rfl
      obtain ⟨event, hin⟩ := h.inList u hu
      simp [hin.interest] at hnone
    refine ⟨h.sets hopen rfl rfl hother rfl rfl ?_ (h.closeIoSource tag), fun hcov =>
      hcov.sets rfl rfl hother rfl ⟨fun hm => hm, fun hm => hm, fun hm => hm⟩⟩
    rw [watched, Events.add, ← BitVec.or_assoc]
    exact hasEvent_kRead_watched events tag

/-- A change that needs no call of epoll adds at most reading. -/
theorem covers_changedEvent {changeHow : EventChangeType} {m ev : Events}
    (h : updateEpoll changeHow m ev = false) :
    (m.union .kRead).Covers (changedEvent changeHow m ev) := by
  cases changeHow with
  | kAddEvent =>
    simp only [updateEpoll, Bool.or_eq_false_iff, Bool.and_eq_false_imp, Bool.not_eq_false'] at h
    refine (Events.covers_union_left _ _).union ⟨fun _ => ?_, fun hev => ?_, fun hev => ?_⟩
    · exact (Events.covers_union_right _ _).read (by decide)
    · exact (Events.covers_union_left _ _).write (h.2 hev)
    · exact (Events.covers_union_left _ _).edge (h.1 hev)
  | kRemoveEvent => exact (Events.covers_union_left _ _).trans (Events.covers_consume m ev)
  | kSetEvent =>
    obtain rfl : ev = m := by simpa [updateEpoll] using h
    exact Events.covers_union_left _ _

/-- A change of the monitored events reaches epoll before it is recorded, unless epoll watches for
all of the events already. -/
theorem ListOk.doModifyEvent (h : r.ListOk) (changeHow : EventChangeType) (tag : HandlerTag)
    (ev : Events) (resources : Bool) :
    (r.doModifyEvent changeHow tag ev resources).1.ListOk ∧
      (r.Covered → (r.doModifyEvent changeHow tag ev resources).1.Covered) := by
  simp only [EpollReactor.doModifyEvent]
  split
  · exact ⟨h, fun hcov => hcov⟩
  rename_i hvalid
  replace hvalid : (r.operations tag).valid = true := by simpa using hvalid
  split
  · -- epoll is not called
    rename_i hupdate
    have hn : Narrows r (r.setEntry tag { r.operations tag with
        monitoredEvents := changedEvent changeHow (r.operations tag).monitoredEvents ev }) := by
      refine .of_update rfl rfl id rfl ?_ id
      exact covers_changedEvent (by simpa using hupdate)
    exact ⟨h.keepsList hn.toKeepsList, fun hcov => hcov.narrows h hn⟩
  · split
    · -- epoll fails, and the entry is left as it was
      exact ⟨h, fun hcov => hcov⟩
    · rename_i kernel hmod
      obtain ⟨event, hin⟩ := h.inList tag hvalid
      have hother := h.ioSource_ne hvalid
      refine ⟨h.sets hin.isOpen (Kernel.eq_of_epollModify hmod) rfl hother rfl rfl
        (hasEvent_kRead_watched _ tag) (h.closeIoSource tag), fun hcov =>
        hcov.sets (Kernel.eq_of_epollModify hmod) rfl hother rfl (Events.covers_ofMask_or _ _ _)⟩

/-- A write is started on an entry that does not monitor writing, while epoll does not watch for it
either, and the call of epoll fails. -/
def StartsUnwatched (r : EpollReactor H) (tag : HandlerTag) (direction : IoJobs.Direction)
    (resources : Bool) : Prop :=
  direction = .write ∧ resources = false ∧
    (r.operations tag).monitoredEvents.hasWriteEvent = false ∧
    ∀ event ∈ r.kernel.interest (r.operations tag).ioSource,
      (watched event).hasWriteEvent = false

/-- The start of an operation without a call of epoll. -/
theorem onStartOfOperation_of_not_update {opType : Events}
    (h : ¬ (opType = .kWrite ∧ (r.operations tag).monitoredEvents.hasWriteEvent = false))
    (resources : Bool) :
    r.onStartOfOperation tag opType resources = r.markOperationStarted tag opType := by
  simp only [onStartOfOperation]
  rw [if_neg (by simpa using h)]

/-- The first write of an entry updates epoll, or goes on without it. -/
theorem onStartOfOperation_write (hin : r.InList tag event)
    (h : (r.operations tag).monitoredEvents.hasWriteEvent = false) (resources : Bool) :
    r.onStartOfOperation tag .kWrite resources =
      if resources then
        { r.markOperationStarted tag .kWrite with kernel := { r.kernel with
          interest := Function.update r.kernel.interest (r.operations tag).ioSource
            (some ⟨((r.operations tag).monitoredEvents.union .kWrite).eventMask ||| EPOLLIN |||
              EPOLLPRI, tag⟩) } }
      else r.markOperationStarted tag .kWrite := by
  simp only [onStartOfOperation]
  rw [if_pos (by simpa using h), markOperationStarted_kernel, markOperationStarted_operations,
    Function.update_self]
  cases resources with
  | true => simp [Kernel.epollModify, hin.isOpen, hin.interest]
  | false => simp [Kernel.epollModify, hin.isOpen, hin.interest]

/-- The entry monitors a write although epoll was not told: only what it watches for already is
covered. -/
theorem Covered.markOperationStarted_write_iff (h : r.Covered) (hin : r.InList tag event)
    (hvalid : (r.operations tag).valid = true) :
    (r.markOperationStarted tag .kWrite).Covered ↔ (watched event).hasWriteEvent = true := by
  constructor
  · intro hcov
    -- the entry monitors the write now, so its mask has to have it
    obtain ⟨event', hint, hcovers⟩ :=
      hcov tag (by simpa [markOperationStarted_operations] using hvalid)
    rw [markOperationStarted_operations, markOperationStarted_kernel, Function.update_self] at hint
    obtain rfl : event = event' := Option.some.inj (hin.interest.symm.trans hint)
    rw [markOperationStarted_operations, Function.update_self] at hcovers
    exact hcovers.write ((Events.covers_union_right _ _).write (by decide))
  · intro hwatched u hu
    rw [markOperationStarted_operations] at hu ⊢
    rw [markOperationStarted_kernel]
    by_cases hut : u = tag
    · subst hut
      rw [Function.update_self]
      obtain ⟨event', hint, hcovers⟩ := h u hvalid
      obtain rfl : event = event' := Option.some.inj (hin.interest.symm.trans hint)
      exact ⟨event, hint, hcovers.union (Events.covers_kWrite hwatched)⟩
    · rw [Function.update_of_ne hut] at hu ⊢
      exact h u hu

/-- Starting an operation leaves everything covered unless it is a write that epoll does not watch
for. -/
theorem ListOk.onStartOfOperation (h : r.ListOk) (hvalid : (r.operations tag).valid = true)
    (direction : IoJobs.Direction) (resources : Bool) :
    (r.onStartOfOperation tag direction.opType resources).ListOk ∧
      (r.Covered → ((r.onStartOfOperation tag direction.opType resources).Covered ↔
        ¬ r.StartsUnwatched tag direction resources)) := by
  obtain ⟨event, hin⟩ := h.inList tag hvalid
  have hops := r.markOperationStarted_operations tag
  have hkernel := r.markOperationStarted_kernel tag
  cases direction with
  | read =>
    rw [onStartOfOperation_of_not_update (fun hw => absurd hw.1 (by decide))]
    have hn : Narrows r (r.markOperationStarted tag .kRead) :=
      .of_update (hkernel _) (hops _) id rfl ((Events.covers_union_left _ _).union
        (Events.covers_union_right _ _)) id
    exact ⟨h.keepsList hn.toKeepsList, fun hcov =>
      iff_of_true (hcov.narrows h hn) (by simp [StartsUnwatched])⟩
  | write =>
    cases hwrite : (r.operations tag).monitoredEvents.hasWriteEvent with
    | true =>
      -- writing is monitored already, and epoll is not called
      rw [onStartOfOperation_of_not_update (by simp [hwrite])]
      have hn : Narrows r (r.markOperationStarted tag .kWrite) := by
        refine .of_update (hkernel _) (hops _) id rfl ?_ id
        exact (Events.covers_union_left _ _).union
          (Events.covers_kWrite ((Events.covers_union_left _ _).write hwrite))
      exact ⟨h.keepsList hn.toKeepsList, fun hcov =>
        iff_of_true (hcov.narrows h hn) (by simp [StartsUnwatched, hwrite])⟩
    | false =>
      have heq := onStartOfOperation_write hin hwrite resources
      cases resources with
      | true =>
        have hother := h.ioSource_ne hvalid
        rw [if_pos rfl] at heq
        rw [IoJobs.Direction.opType, heq]
        exact ⟨h.sets hin.isOpen rfl (hops _) hother rfl rfl (hasEvent_kRead_watched _ tag)
            (h.closeIoSource tag), fun hcov =>
          iff_of_true (hcov.sets rfl (hops _) hother rfl (Events.covers_ofMask_or _ _ _))
            (by simp [StartsUnwatched])⟩
      | false =>
        rw [if_neg (by simp)] at heq
        rw [IoJobs.Direction.opType, heq]
        refine ⟨h.keepsList (.of_update (hkernel _) (hops _) id rfl id), fun hcov => ?_⟩
        have hunwatched : r.StartsUnwatched tag .write false ↔
            (watched event).hasWriteEvent = false := by
          simp [StartsUnwatched, hwrite, hin.interest]
        rw [hunwatched, Bool.not_eq_false]
        exact hcov.markOperationStarted_write_iff hin hvalid

/-- The cleanup closes nothing. -/
theorem ListOk.cleanupOperation (h : r.ListOk) (tag : HandlerTag) :
    Narrows r (r.cleanupOperation tag) := by
  refine .of_update ?_ rfl id rfl (Events.covers_union_left _ _) (by simp)
  simp [EpollReactor.cleanupOperation, setEntry, h.closeIoSource tag]

theorem ListOk.finishOperation (h : r.ListOk) (tag : HandlerTag) :
    Narrows r (r.finishOperation tag) := by
  rw [finishOperation_eq]
  refine .of_update ?_ rfl id rfl (Events.covers_union_left _ _) (by simp)
  simp [setEntry, h.closeIoSource tag]

/-- An event of epoll leaves the monitored events alone. -/
theorem narrows_handleSingleEvent (r : EpollReactor H) (event : EpollEvent)
    (opQueue : List Operation) : Narrows r (r.handleSingleEvent event opQueue).1 := by
  obtain ⟨posted, heq, -⟩ := handleSingleEvent_eq r event opQueue
  rw [heq]
  exact .of_update rfl rfl id rfl (Events.covers_union_left _ _) id

/-- The operations of software events leave the monitored events alone. -/
theorem narrows_finishSoftwareOperation (r : EpollReactor H) (tag : HandlerTag) :
    Narrows r (r.finishSoftwareOperation tag) := by
  rw [finishSoftwareOperation_eq]
  refine .of_update rfl rfl ?_ rfl (Events.covers_union_left _ _) id
  simp only [Bool.and_eq_true]
  exact And.left

/-- Events that are ignored were monitored before. -/
theorem ListOk.beginIo {s : Calls.State H} (h : s.reactor.ListOk) (tag : HandlerTag)
    (ignored : Option Events) (queued : List Operation) :
    Narrows s.reactor (s.beginIo tag ignored queued).reactor := by
  rcases Calls.beginIo_cases s tag ignored queued with
    ⟨-, heq⟩ | ⟨-, heq | ⟨reported, ev, jobCount, hreported, heq⟩⟩
  · rw [heq]
    exact .of_operations (fun _ h => h) rfl rfl
  · rw [heq]
    exact h.cleanupOperation tag
  · rw [heq]
    refine .of_update rfl rfl id rfl ?_ id
    have hmonitored :
        (s.reactor.operations tag).monitoredEvents.Covers (reported.intersection ev) := by
      rw [hreported]
      exact (Events.covers_intersection_right _ _).trans (Events.covers_intersection_left _ _)
    exact (Events.covers_union_left _ _).trans ((Events.covers_consume _ _).union hmonitored)

end EpollReactor

namespace MonitoredEvents

open Calls (State Action)

variable {H : Type} {s t : State H} {a : Action H}

/-- The steps that concern the monitored events: registration for I/O, the start of an operation,
changes of the monitored events, and the execution of operations. -/
def Monitors : Action H → Bool
  | .openFd _ | .start _ _ _ | .modify _ _ _ _ | .event _ | .begin _ _ | .ignoreRead _
  | .finish _ => true
  | .register _ events _ _ => events.hasIoEvent
  | _ => false

/-- The reactor, with these steps only. -/
def machine (H : Type) : ToMathlib.Machine (State H) (Action H) where
  init := (Calls.machine H).init
  step s a := if Monitors a then s.step a else none

/-- The step starts a write that epoll does not watch for, and epoll fails. -/
def StartsUnwatched (s : State H) : Action H → Prop
  | .start tag direction resources => s.reactor.StartsUnwatched tag direction resources
  | _ => False

/-- A step keeps the descriptors in the interest list, and leaves everything covered exactly if it
does not start a write that epoll does not watch for. -/
theorem step_listOk (h : s.reactor.ListOk) (ht : (machine H).step s a = some t) :
    t.reactor.ListOk ∧ (s.reactor.Covered → (t.reactor.Covered ↔ ¬ StartsUnwatched s a)) := by
  simp only [machine] at ht
  split at ht
  case isFalse => cases ht
  rename_i hmonitors
  -- most steps change neither the interest list nor more than the reading that is monitored
  have of_narrows (hn : s.reactor.Narrows t.reactor) (hstarts : ¬ StartsUnwatched s a) :
      t.reactor.ListOk ∧ (s.reactor.Covered → (t.reactor.Covered ↔ ¬ StartsUnwatched s a)) :=
    ⟨h.keepsList hn.toKeepsList, fun hcov => iff_of_true (hcov.narrows h hn) hstarts⟩
  have of_covered (hok : t.reactor.ListOk ∧ (s.reactor.Covered → t.reactor.Covered))
      (hstarts : ¬ StartsUnwatched s a) :
      t.reactor.ListOk ∧ (s.reactor.Covered → (t.reactor.Covered ↔ ¬ StartsUnwatched s a)) :=
    ⟨hok.1, fun hcov => iff_of_true (hok.2 hcov) hstarts⟩
  cases a with
  | openFd fd =>
    -- a new descriptor is in no interest list
    obtain rfl := Option.some.inj ht
    refine of_narrows (.of_operations (fun fd' hopen => ?_) rfl rfl) nofun
    by_cases heq : fd' = fd
    · subst heq
      exact Function.update_self ..
    · exact (Function.update_of_ne heq ..).trans hopen
  | register fd events handler resources =>
    obtain rfl := Option.some.inj ht
    exact of_covered (h.registerImpl hmonitors fd handler resources) nofun
  | start tag direction resources =>
    simp only [State.step] at ht
    split_ifs at ht with hvalid
    obtain rfl := Option.some.inj ht
    exact h.onStartOfOperation hvalid direction resources
  | modify changeHow tag ev resources =>
    obtain rfl := Option.some.inj ht
    exact of_covered (h.doModifyEvent changeHow tag ev resources) nofun
  | event event =>
    simp only [State.step] at ht
    split_ifs at ht
    obtain rfl := Option.some.inj ht
    exact of_narrows (EpollReactor.narrows_handleSingleEvent _ _ _) nofun
  | begin op ignored =>
    simp only [State.step] at ht
    split_ifs at ht
    cases op with
    | ioEvent tag =>
      obtain rfl := Option.some.inj ht
      exact of_narrows (h.beginIo tag ignored _) nofun
    | softwareEvent tag =>
      obtain rfl := Option.some.inj ht
      exact of_narrows (.of_update rfl rfl id rfl (Events.covers_union_left _ _) id) nofun
    | timer =>
      obtain rfl := Option.some.inj ht
      exact of_narrows (.of_operations (fun _ h => h) rfl rfl) nofun
  | ignoreRead tag =>
    simp only [State.step] at ht
    split_ifs at ht
    obtain rfl := Option.some.inj ht
    refine of_narrows (.of_update rfl rfl id rfl ?_ id) nofun
    exact (Events.covers_union_left _ _).union (Events.covers_union_right _ _)
  | finish op =>
    simp only [State.step] at ht
    split_ifs at ht
    cases op with
    | ioEvent tag =>
      obtain rfl := Option.some.inj ht
      exact of_narrows (h.finishOperation tag) nofun
    | softwareEvent tag =>
      obtain rfl := Option.some.inj ht
      exact of_narrows (EpollReactor.narrows_finishSoftwareOperation _ _) nofun
    | timer =>
      obtain rfl := Option.some.inj ht
      exact of_narrows (.of_operations (fun _ h => h) rfl rfl) nofun
  | closeFd _ | registerSoftwareEvent _ _ | deregister _ _ | deregisterSoftwareEvent _
  | trigger _ | softwareEvents => cases hmonitors

/-- Initially nothing is registered. -/
theorem listOk_of_init (hs : (machine H).init s) : s.reactor.ListOk ∧ s.reactor.Covered := by
  obtain ⟨size, isOpen, rfl⟩ := hs
  refine ⟨⟨?_, fun _ => rfl⟩, ?_⟩
  · intro tag hvalid
    cases hvalid
  · intro tag hvalid
    cases hvalid

/-- In every run, epoll watches after each step for all that is monitored if and only if no step
starts a write that is not monitored while epoll does not watch for it and epoll fails. -/
theorem covered_iff (size : ℕ) (isOpen : NativeHandle → Bool) (as : List (Action H)) :
    (machine H).Along (fun _ _ t => t.reactor.Covered)
        { reactor := { size, kernel := { isOpen } } } as ↔
      (machine H).Along (fun s a _ => ¬ StartsUnwatched s a)
        { reactor := { size, kernel := { isOpen } } } as := by
  refine ToMathlib.Machine.along_iff_of_invariant
    (I := fun s => s.reactor.ListOk ∧ s.reactor.Covered) (listOk_of_init ⟨size, isOpen, rfl⟩) ?_ ?_
  · intro s a t hs ht
    exact (step_listOk hs.1 ht).2 hs.2
  · intro s a t hs ht hcov
    exact ⟨(step_listOk hs.1 ht).1, hcov⟩

/-- A socket is registered for reading, and its first write is started while the kernel lacks
resources: the entry monitors writing from then on, and epoll does not. -/
theorem not_covered_failed_write :
    ¬ (machine Unit).Along (fun _ _ t => t.reactor.Covered)
      { reactor := { size := 1, kernel := { isOpen := fun _ => true } } }
      [.register 5 { eventMask := EPOLLIN ||| EPOLLET } () true, .start 0 .write false] := by
  intro h
  obtain ⟨-, hwrite⟩ := h _ rfl
  obtain ⟨hcovered, -⟩ := hwrite _ rfl
  obtain ⟨event, hinterest, hcovers⟩ := hcovered 0 rfl
  obtain rfl : event = ⟨EPOLLIN ||| EPOLLET ||| (EPOLLIN ||| EPOLLPRI), 0⟩ :=
    (Option.some.inj hinterest).symm
  have hwatched := hcovers.write rfl
  cases hwatched

end MonitoredEvents

end Asrt.Reactor
