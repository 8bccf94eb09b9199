import Asrt.Reactor.Registration
import Asrt.Socket.BasicSocket

/-!
# Isolation of sockets under slot reuse

Closing or destroying a socket goes through the reactor handle that the socket keeps. As long as the
socket holds its registration the handle names the socket's own entry. The handle is never reset,
though. A `Close()` made while the socket's handler executes is completed by the operation, but the
socket stays open with the handle of a slot that is free afterwards; a socket that was closed and is
opened again skips the registration, because its handle still counts as valid. If the slot is given
to another socket meanwhile, the next `Close()` or the destructor deregisters that socket's entry.

The invariant ties the three objects together: sockets that hold a registration and valid entries
correspond to each other, entries that still have a descriptor to close have different descriptors,
and what a deregistration left to an executing operation is done before the slot is free.
-/

namespace Asrt.Socket

open Reactor

variable {K : Type}

/-- The entry has a descriptor that it will close: it is valid, or its closing is deferred. -/
def Holds (entry : OperationEntry K) : Prop := entry.valid = true ∨ entry.closeIoSource = true

/-- An entry agrees with the kernel, and deferred work waits for an executing operation. -/
structure EntryOk (kernel : Kernel) (entry : OperationEntry K) : Prop where
  live : entry.valid = true → kernel.isOpen entry.ioSource = true ∧
    (kernel.interest entry.ioSource).isSome = true ∧ entry.releaseHandlerMemory = false ∧
    entry.closeIoSource = false
  closing : entry.closeIoSource = true → kernel.isOpen entry.ioSource = true
  deferred : entry.releaseHandlerMemory = true ∨ entry.closeIoSource = true →
    entry.executionInProgress = true

/-- An entry that holds a descriptor holds an open one. -/
theorem EntryOk.isOpen {kernel : Kernel} {entry : OperationEntry K} (h : EntryOk kernel entry)
    (hholds : Holds entry) : kernel.isOpen entry.ioSource = true := by
  rcases hholds with hvalid | hclose
  · exact (h.live hvalid).1
  · exact h.closing hclose

/-- An entry whose operation is not executing has no deferred work. -/
theorem EntryOk.idle {kernel : Kernel} {entry : OperationEntry K} (h : EntryOk kernel entry)
    (hidle : entry.executionInProgress = false) :
    entry.releaseHandlerMemory = false ∧ entry.closeIoSource = false := by
  constructor
  · refine Bool.eq_false_iff.mpr fun hrel => ?_
    rw [h.deferred (.inl hrel)] at hidle
    cases hidle
  · refine Bool.eq_false_iff.mpr fun hclose => ?_
    rw [h.deferred (.inr hclose)] at hidle
    cases hidle

/-- An entry still agrees with a kernel that has kept its descriptor. -/
theorem EntryOk.kernel {kernel kernel' : Kernel} {entry : OperationEntry K}
    (h : EntryOk kernel entry)
    (hkept : Holds entry → kernel'.isOpen entry.ioSource = true ∧
      ((kernel.interest entry.ioSource).isSome = true →
        (kernel'.interest entry.ioSource).isSome = true)) : EntryOk kernel' entry := by
  refine ⟨fun hvalid => ?_, fun hclose => (hkept (.inr hclose)).1, h.deferred⟩
  obtain ⟨hopen, hint⟩ := hkept (.inl hvalid)
  obtain ⟨-, hi, hflags⟩ := h.live hvalid
  exact ⟨hopen, hint hi, hflags⟩

/-- The step closes or destroys socket `k`. -/
def Action.Ends (k : K) : Action K → Prop
  | .close k' | .destroy k' => k' = k
  | _ => False

namespace State

/-- The entry of the tag was registered by socket `k`. -/
def Registered (σ : State K) (tag : HandlerTag) (k : K) : Prop :=
  (σ.reactor.operations tag).valid = true ∧ (σ.reactor.operations tag).handler = some k

instance (σ : State K) [DecidableEq K] (tag : HandlerTag) (k : K) :
    Decidable (σ.Registered tag k) :=
  inferInstanceAs (Decidable (_ ∧ _))

/-- The entry keeps its registration, its handler and its open descriptor. -/
def Survives (σ σ' : State K) (tag : HandlerTag) : Prop :=
  (σ'.reactor.operations tag).valid = true ∧
  (σ'.reactor.operations tag).handler = (σ.reactor.operations tag).handler ∧
  (σ'.reactor.operations tag).ioSource = (σ.reactor.operations tag).ioSource ∧
  σ'.reactor.kernel.isOpen (σ.reactor.operations tag).ioSource = true

/-- The step deregisters no entry, releases no handler and closes no descriptor of a socket that it
does not close or destroy. -/
def Isolates (σ : State K) (a : Action K) (σ' : State K) : Prop :=
  ∀ tag k, σ.Registered tag k → ¬ a.Ends k → σ.Survives σ' tag

/-- A socket that counts as open although it has given up its registration is closed or destroyed
only while the slot that its handle names has not been taken again. -/
def NoStaleHandle (σ : State K) : Action K → Prop
  | .close k | .destroy k =>
    (σ.sockets k).isClosed = true ∨ (σ.sockets k).registered = true ∨
      (σ.reactor.operations (σ.sockets k).reactorHandle).valid = false
  | _ => True

instance (σ : State K) : (a : Action K) → Decidable (σ.NoStaleHandle a)
  | .close _ | .destroy _ => inferInstanceAs (Decidable (_ ∨ _ ∨ _))
  | .openSocket _ _ _ | .start _ _ _ | .event _ | .begin | .finish _ =>
    inferInstanceAs (Decidable True)

/-- The invariant of the sockets, the operation table, the kernel and the queued operations. -/
structure Inv (σ : State K) : Prop where
  size : σ.reactor.size < 2 ^ 16
  entry : ∀ tag, EntryOk σ.reactor.kernel (σ.reactor.operations tag)
  /-- Entries that hold descriptors hold different ones. -/
  distinct : ∀ tag u, tag ≠ u → Holds (σ.reactor.operations tag) →
    Holds (σ.reactor.operations u) →
    (σ.reactor.operations tag).ioSource ≠ (σ.reactor.operations u).ioSource
  /-- A socket that holds a registration is the handler of the entry its handle names. -/
  registered : ∀ k, (σ.sockets k).registered = true →
    (σ.reactor.operations (σ.sockets k).reactorHandle).valid = true ∧
    (σ.reactor.operations (σ.sockets k).reactorHandle).handler = some k ∧
    (σ.sockets k).reactorHandle < σ.reactor.size
  /-- Every valid entry is the registration of a socket. -/
  valid : ∀ tag, (σ.reactor.operations tag).valid = true →
    ∃ k, (σ.sockets k).registered = true ∧ (σ.sockets k).reactorHandle = tag
  /-- An operation is queued or executing at most once, and only while the entry is posted. -/
  posted : ∀ tag, σ.queued.count tag + σ.executing.count tag ≤
    (σ.reactor.operations tag).handlerPosted.toNat
  inProgress : ∀ tag, (σ.reactor.operations tag).executionInProgress = true → tag ∈ σ.executing

variable {σ σ' : State K} {tag : HandlerTag} {entry : OperationEntry K}

variable (tag) in
/-- A step that replaces the entry of one tag keeps the invariant if it leaves the descriptors of
the other entries alone and the sockets follow. -/
theorem Inv.update (h : σ.Inv) (hsize : σ'.reactor.size = σ.reactor.size)
    (hops : σ'.reactor.operations = Function.update σ.reactor.operations tag entry)
    (hentry : EntryOk σ'.reactor.kernel entry)
    (hkernel : ∀ u, u ≠ tag → Holds (σ.reactor.operations u) →
      σ'.reactor.kernel.isOpen (σ.reactor.operations u).ioSource = true ∧
      ((σ.reactor.kernel.interest (σ.reactor.operations u).ioSource).isSome = true →
        (σ'.reactor.kernel.interest (σ.reactor.operations u).ioSource).isSome = true))
    (hdistinct : Holds entry → ∀ u, u ≠ tag → Holds (σ.reactor.operations u) →
      entry.ioSource ≠ (σ.reactor.operations u).ioSource)
    (hregistered : ∀ k, (σ'.sockets k).registered = true →
      ((σ'.sockets k).reactorHandle ≠ tag ∧ (σ.sockets k).registered = true ∧
        (σ.sockets k).reactorHandle = (σ'.sockets k).reactorHandle) ∨
      ((σ'.sockets k).reactorHandle = tag ∧ entry.valid = true ∧ entry.handler = some k ∧
        tag < σ.reactor.size))
    (hkept : ∀ k, (σ.sockets k).registered = true → (σ.sockets k).reactorHandle ≠ tag →
      (σ'.sockets k).registered = true ∧
        (σ'.sockets k).reactorHandle = (σ.sockets k).reactorHandle)
    (hvalid : entry.valid = true →
      ∃ k, (σ'.sockets k).registered = true ∧ (σ'.sockets k).reactorHandle = tag)
    (hposted : ∀ u, σ'.queued.count u + σ'.executing.count u ≤
      (σ'.reactor.operations u).handlerPosted.toNat)
    (hprogress : ∀ u, (σ'.reactor.operations u).executionInProgress = true →
      u ∈ σ'.executing) : σ'.Inv := by
  -- each part of the invariant is split into the entry of the tag and the other ones
  refine ⟨hsize ▸ h.size, fun u => ?_, fun u v huv => ?_, fun k hk => ?_, fun u hu => ?_, hposted,
    hprogress⟩
  · rw [hops]
    by_cases hu : u = tag
    · subst hu; simpa using hentry
    · rw [Function.update_of_ne hu]
      exact (h.entry u).kernel (hkernel u hu)
  · rw [hops]
    by_cases hu : u = tag
    · subst hu
      rw [Function.update_self, Function.update_of_ne huv.symm]
      exact fun hhold hhold' => hdistinct hhold v huv.symm hhold'
    · rw [Function.update_of_ne hu]
      by_cases hv : v = tag
      · subst hv
        rw [Function.update_self]
        exact fun hhold hhold' => (hdistinct hhold' u hu hhold).symm
      · rw [Function.update_of_ne hv]
        exact h.distinct u v huv
  · rw [hops, hsize]
    rcases hregistered k hk with ⟨hne, hk', hhandle⟩ | ⟨heq, hv, hh, hlt⟩
    · rw [Function.update_of_ne hne, ← hhandle]
      exact h.registered k hk'
    · rw [heq, Function.update_self]
      exact ⟨hv, hh, hlt⟩
  · rw [hops] at hu
    by_cases hut : u = tag
    · subst hut
      exact hvalid (by simpa using hu)
    · rw [Function.update_of_ne hut] at hu
      obtain ⟨k, hk, rfl⟩ := h.valid u hu
      exact ⟨k, hkept k hk hut⟩

/-- Entries other than the replaced one survive if the kernel keeps their descriptors. -/
theorem survives_of_ne
    (hops : σ'.reactor.operations = Function.update σ.reactor.operations tag entry)
    {u : HandlerTag} (hu : u ≠ tag) (hvalid : (σ.reactor.operations u).valid = true)
    (hopen : σ'.reactor.kernel.isOpen (σ.reactor.operations u).ioSource = true) :
    σ.Survives σ' u := by
  have hsame : σ'.reactor.operations u = σ.reactor.operations u := by
    rw [hops, Function.update_of_ne hu]
  exact ⟨hsame ▸ hvalid, by rw [hsame], by rw [hsame], hopen⟩

/-! ## Steps that leave registrations alone -/

/-- The parts of an entry that registration and deregistration write. -/
def SameRegistration (e e' : OperationEntry K) : Prop :=
  e'.valid = e.valid ∧ e'.handler = e.handler ∧ e'.ioSource = e.ioSource ∧
    e'.releaseHandlerMemory = e.releaseHandlerMemory ∧ e'.closeIoSource = e.closeIoSource

variable (tag) in
/-- A step that only changes the events and the progress of one entry keeps the invariant and every
registration. -/
theorem Inv.quiet (h : σ.Inv) (hsockets : σ'.sockets = σ.sockets)
    (hsize : σ'.reactor.size = σ.reactor.size)
    (hops : σ'.reactor.operations = Function.update σ.reactor.operations tag entry)
    (hsame : SameRegistration (σ.reactor.operations tag) entry)
    (hopen : σ'.reactor.kernel.isOpen = σ.reactor.kernel.isOpen)
    (hint : ∀ fd, (σ.reactor.kernel.interest fd).isSome = true →
      (σ'.reactor.kernel.interest fd).isSome = true)
    (hflags : entry.releaseHandlerMemory = true ∨ entry.closeIoSource = true →
      entry.executionInProgress = true)
    (hposted : ∀ u, σ'.queued.count u + σ'.executing.count u ≤
      (σ'.reactor.operations u).handlerPosted.toNat)
    (hprogress : ∀ u, (σ'.reactor.operations u).executionInProgress = true →
      u ∈ σ'.executing) :
    σ'.Inv ∧ ∀ u, (σ.reactor.operations u).valid = true → σ.Survives σ' u := by
  obtain ⟨hvalid, hhandler, hio, hrel, hclose⟩ := hsame
  have hkept (u : HandlerTag) (hholds : Holds (σ.reactor.operations u)) :
      σ'.reactor.kernel.isOpen (σ.reactor.operations u).ioSource = true ∧
      ((σ.reactor.kernel.interest (σ.reactor.operations u).ioSource).isSome = true →
        (σ'.reactor.kernel.interest (σ.reactor.operations u).ioSource).isSome = true) :=
    ⟨hopen ▸ (h.entry u).isOpen hholds, hint _⟩
  -- the new entry needs the same descriptor as the old one
  have hholds : Holds entry ↔ Holds (σ.reactor.operations tag) := by
    simp only [Holds, hvalid, hclose]
  refine ⟨h.update tag hsize hops ?_ (fun u _ => hkept u) ?_ ?_ ?_ ?_ hposted hprogress, ?_⟩
  · have hold := (h.entry tag).kernel (hkept tag)
    refine ⟨?_, ?_, hflags⟩
    · simpa only [hvalid, hio, hrel, hclose] using hold.live
    · simpa only [hio, hclose] using hold.closing
  · intro hentry u hu hu'
    rw [hio]
    exact h.distinct tag u hu.symm (hholds.mp hentry) hu'
  · intro k hk
    rw [hsockets] at hk ⊢
    by_cases hktag : (σ.sockets k).reactorHandle = tag
    · obtain ⟨hv, hh, hlt⟩ := h.registered k hk
      rw [hktag] at hv hh hlt
      exact .inr ⟨hktag, hvalid.trans hv, hhandler.trans hh, hlt⟩
    · exact .inl ⟨hktag, hk, rfl⟩
  · intro k hk _
    rw [hsockets]
    exact ⟨hk, rfl⟩
  · intro hv
    rw [hsockets]
    exact h.valid tag (hvalid ▸ hv)
  · intro u hu
    by_cases hut : u = tag
    · subst hut
      have hentry : σ'.reactor.operations u = entry := by rw [hops, Function.update_self]
      exact ⟨by rw [hentry, hvalid, hu], by rw [hentry, hhandler], by rw [hentry, hio],
        (hkept u (.inl hu)).1⟩
    · exact survives_of_ne hops hut hu (hkept u (.inl hu)).1

variable (tag) in
/-- The entry of a queued operation has no deferred work. -/
theorem Inv.idle_of_queued (h : σ.Inv) (hq : tag ∈ σ.queued) :
    (σ.reactor.operations tag).executionInProgress = false := by
  refine Bool.eq_false_iff.mpr fun hprog => ?_
  -- a queued and an executing operation together would be two
  have hcount := h.posted tag
  have hle := Bool.toNat_le (σ.reactor.operations tag).handlerPosted
  have hq' := List.count_pos_iff.mpr hq
  have he := List.count_pos_iff.mpr (h.inProgress tag hprog)
  omega

/-- Starting an operation leaves registrations alone, whatever entry the handle names. -/
theorem Inv.start (h : σ.Inv) (tag : HandlerTag) (opType : Events) (resources : Bool) :
    let σ' := { σ with reactor := σ.reactor.onStartOfOperation tag opType resources }
    σ'.Inv ∧ ∀ u, (σ.reactor.operations u).valid = true → σ.Survives σ' u := by
  obtain ⟨interest, hint, heq⟩ :=
    EpollReactor.onStartOfOperation_eq σ.reactor tag opType resources
  rw [EpollReactor.markOperationStarted_eq] at heq
  have hops : (σ.reactor.onStartOfOperation tag opType resources).operations =
      Function.update σ.reactor.operations tag { σ.reactor.operations tag with
        monitoredEvents := (σ.reactor.operations tag).monitoredEvents.union opType
        asyncOperationOngoing := true } := by rw [heq]; rfl
  refine h.quiet tag rfl (by rw [heq]; rfl) hops ⟨rfl, rfl, rfl, rfl, rfl⟩
    (by rw [heq]) (by rw [heq]; exact hint) (h.entry tag).deferred (fun u => ?_) (fun u => ?_)
  · simp only [hops]
    by_cases hu : u = tag
    · subst hu; simpa using h.posted u
    · simpa [Function.update_of_ne hu] using h.posted u
  · simp only [hops]
    by_cases hu : u = tag
    · subst hu; simpa using h.inProgress u
    · simpa [Function.update_of_ne hu] using h.inProgress u

/-- Handling an event leaves registrations alone. -/
theorem Inv.handleEvent [DecidableEq K] (h : σ.Inv) (event : EpollEvent) :
    (σ.handleEvent event).Inv ∧
      ∀ u, (σ.reactor.operations u).valid = true → σ.Survives (σ.handleEvent event) u := by
  obtain ⟨posted, heq, hposted⟩ := EpollReactor.handleSingleEvent_eq σ.reactor event []
  have hσ' : σ.handleEvent event = { σ with
      reactor := σ.reactor.setEntry event.tag { σ.reactor.operations event.tag with
        capturedEvents := Events.ofMask event.events
        handlerPosted := (σ.reactor.operations event.tag).handlerPosted || posted }
      queued := σ.queued ++ if posted then [event.tag] else [] } := by
    unfold State.handleEvent
    rw [heq]
    cases posted <;> simp
  rw [hσ']
  refine h.quiet event.tag rfl rfl rfl ⟨rfl, rfl, rfl, rfl, rfl⟩ rfl (fun _ hfd => hfd)
    (h.entry event.tag).deferred (fun u => ?_) (fun u => ?_)
  · have hold := h.posted u
    by_cases hu : u = event.tag
    · subst hu
      cases posted with
      | false => simpa using hold
      | true =>
        -- it was not posted before, so this is its only operation
        rw [(hposted rfl).2, Bool.toNat_false] at hold
        simp
        omega
    · have hzero : (if posted then [event.tag] else []).count u = 0 := by
        cases posted <;> simp [Ne.symm hu]
      simpa [Function.update_of_ne hu, List.count_append, hzero] using hold
  · by_cases hu : u = event.tag
    · subst hu; simpa using h.inProgress event.tag
    · simpa [Function.update_of_ne hu] using h.inProgress u

/-- Beginning an operation leaves registrations alone. -/
theorem Inv.beginOperation [DecidableEq K] (h : σ.Inv) {rest : List HandlerTag}
    (hq : σ.queued = tag :: rest) :
    (σ.beginOperation tag rest).Inv ∧
      ∀ u, (σ.reactor.operations u).valid = true →
        σ.Survives (σ.beginOperation tag rest) u := by
  -- nothing is deferred to an operation that has not begun
  have hidle := h.idle_of_queued tag (by simp [hq])
  obtain ⟨hrel, hclose⟩ := (h.entry tag).idle hidle
  have hcount (u : HandlerTag) : rest.count u + (if tag = u then 1 else 0) + σ.executing.count u ≤
      (σ.reactor.operations u).handlerPosted.toNat := by
    have := h.posted u
    simpa [hq, List.count_cons] using this
  have hposted (u : HandlerTag) : rest.count u + σ.executing.count u ≤
      (σ.reactor.operations u).handlerPosted.toNat := by
    have := hcount u
    omega
  unfold State.beginOperation
  rcases EpollReactor.beginOperation_cases σ.reactor tag with ⟨-, heq⟩ | ⟨-, heq⟩ | ⟨-, heq⟩
  · rw [heq]
    exact h.quiet tag rfl rfl (Function.update_eq_self _ _).symm
      ⟨rfl, rfl, rfl, rfl, rfl⟩ rfl (fun _ hfd => hfd) (h.entry tag).deferred hposted h.inProgress
  · rw [heq]
    refine h.quiet tag rfl rfl rfl ⟨rfl, by simp [hrel], rfl, hrel.symm, hclose.symm⟩
      (by simp [EpollReactor.cleanupOperation, hclose])
      (by simp [EpollReactor.cleanupOperation, hclose]) (by simp) (fun u => ?_) (fun u => ?_)
    · have hu := hcount u
      have hle := Bool.toNat_le (σ.reactor.operations u).handlerPosted
      by_cases hut : u = tag
      · subst hut
        simp [EpollReactor.cleanupOperation] at hu ⊢
        omega
      · simpa [EpollReactor.cleanupOperation, Function.update_of_ne hut, Ne.symm hut] using hu
    · by_cases hut : u = tag
      · subst hut; simpa [EpollReactor.cleanupOperation] using h.inProgress u
      · simpa [EpollReactor.cleanupOperation, Function.update_of_ne hut] using h.inProgress u
  · -- the operation moves from the queue to the executing ones
    rw [heq]
    refine h.quiet tag rfl rfl rfl ⟨rfl, rfl, rfl, rfl, rfl⟩ rfl (fun _ hfd => hfd)
      (fun _ => rfl) (fun u => ?_) (fun u => ?_)
    · have hu := hcount u
      by_cases hut : u = tag
      · subst hut; simp at hu ⊢; omega
      · simpa [Function.update_of_ne hut, List.count_cons, Ne.symm hut] using hu
    · by_cases hut : u = tag
      · subst hut; simp
      · simpa [Function.update_of_ne hut, hut] using h.inProgress u

/-- A socket that holds a registration does not name an entry that is not valid. -/
theorem Inv.ne_of_registered (h : σ.Inv) (hvalid : (σ.reactor.operations tag).valid = false) {k : K}
    (hk : (σ.sockets k).registered = true) : (σ.sockets k).reactorHandle ≠ tag := by
  rintro rfl
  rw [(h.registered k hk).1] at hvalid
  cases hvalid

/-- The end of an operation completes what its own entry deferred, and nothing else. -/
theorem Inv.finish (h : σ.Inv) (hexec : tag ∈ σ.executing) :
    let σ' := { σ with
      reactor := σ.reactor.finishOperation tag
      executing := σ.executing.erase tag }
    σ'.Inv ∧ ∀ u, (σ.reactor.operations u).valid = true → σ.Survives σ' u := by
  have hops : (σ.reactor.finishOperation tag).operations =
      Function.update σ.reactor.operations tag { σ.reactor.operations tag with
        executionInProgress := false
        handler := if (σ.reactor.operations tag).releaseHandlerMemory then none
          else (σ.reactor.operations tag).handler
        releaseHandlerMemory := false
        closeIoSource := false
        handlerPosted := false } := by
    rw [EpollReactor.finishOperation_eq]; rfl
  have hkernel : (σ.reactor.finishOperation tag).kernel =
      if (σ.reactor.operations tag).closeIoSource
      then σ.reactor.kernel.closeFd (σ.reactor.operations tag).ioSource else σ.reactor.kernel := by
    rw [EpollReactor.finishOperation_eq]; rfl
  have hpos := List.count_pos_iff.mpr hexec
  have hposted (u : HandlerTag) : σ.queued.count u + (σ.executing.erase tag).count u ≤
      ((σ.reactor.finishOperation tag).operations u).handlerPosted.toNat := by
    have hu := h.posted u
    have hle := Bool.toNat_le (σ.reactor.operations u).handlerPosted
    rw [hops]
    by_cases hut : u = tag
    · subst hut
      simp
      omega
    · rwa [Function.update_of_ne hut, List.count_erase_of_ne hut]
  have hprogress (u : HandlerTag)
      (hu : ((σ.reactor.finishOperation tag).operations u).executionInProgress = true) :
      u ∈ σ.executing.erase tag := by
    rw [hops] at hu
    by_cases hut : u = tag
    · subst hut; simp at hu
    · rw [Function.update_of_ne hut] at hu
      exact (List.mem_erase_of_ne hut).mpr (h.inProgress u hu)
  cases hvalid : (σ.reactor.operations tag).valid with
  | true =>
    obtain ⟨-, -, hrel, hclose⟩ := (h.entry tag).live hvalid
    exact h.quiet tag rfl rfl hops ⟨rfl, by simp [hrel], rfl, hrel.symm, hclose.symm⟩
      (by rw [hkernel, hclose]; rfl) (by rw [hkernel, hclose]; exact fun _ hfd => hfd) (by simp)
      hposted hprogress
  | false =>
    -- the descriptor that is closed here belongs to no other entry
    have hkept (u : HandlerTag) (hu : u ≠ tag) (hholds : Holds (σ.reactor.operations u)) :
        (σ.reactor.finishOperation tag).kernel.isOpen (σ.reactor.operations u).ioSource = true ∧
        ((σ.reactor.kernel.interest (σ.reactor.operations u).ioSource).isSome = true →
          ((σ.reactor.finishOperation tag).kernel.interest
            (σ.reactor.operations u).ioSource).isSome = true) := by
      have hopen := (h.entry u).isOpen hholds
      rw [hkernel]
      split
      · rename_i hclose
        have hne := h.distinct u tag hu hholds (.inr hclose)
        simpa [Kernel.closeFd, Function.update_of_ne hne] using hopen
      · exact ⟨hopen, id⟩
    refine ⟨h.update tag rfl hops ⟨by simp [hvalid], by simp, by simp⟩ hkept
      (by simp [Holds, hvalid]) (fun k hk => .inl ⟨h.ne_of_registered hvalid hk, hk, rfl⟩)
      (fun k hk _ => ⟨hk, rfl⟩) (by simp [hvalid]) hposted hprogress, fun u hu => ?_⟩
    have hut : u ≠ tag := by
      rintro rfl
      rw [hu] at hvalid
      cases hvalid
    exact survives_of_ne hops hut hu (hkept u hut (.inl hu)).1

/-- A step that leaves the table, the registrations and the descriptors in use alone. -/
theorem Inv.unrelated (h : σ.Inv) (hsize : σ'.reactor.size = σ.reactor.size)
    (hops : σ'.reactor.operations = σ.reactor.operations)
    (hsockets : ∀ k, (σ'.sockets k).registered = (σ.sockets k).registered ∧
      (σ'.sockets k).reactorHandle = (σ.sockets k).reactorHandle)
    (hkernel : ∀ fd, σ.reactor.kernel.isOpen fd = true →
      σ'.reactor.kernel.isOpen fd = true ∧
      ((σ.reactor.kernel.interest fd).isSome = true →
        (σ'.reactor.kernel.interest fd).isSome = true))
    (hqueued : σ'.queued = σ.queued) (hexecuting : σ'.executing = σ.executing) :
    σ'.Inv ∧ ∀ u, (σ.reactor.operations u).valid = true → σ.Survives σ' u := by
  have hkept (u : HandlerTag) (hholds : Holds (σ.reactor.operations u)) :=
    hkernel (σ.reactor.operations u).ioSource ((h.entry u).isOpen hholds)
  refine ⟨⟨hsize ▸ h.size, fun u => ?_, ?_, ?_, ?_, ?_, ?_⟩, fun u hu => ?_⟩
  · rw [hops]; exact (h.entry u).kernel (hkept u)
  · rw [hops]; exact h.distinct
  · simpa only [hops, hsize, (hsockets _).1, (hsockets _).2] using h.registered
  · simpa only [hops, (hsockets _).1, (hsockets _).2] using h.valid
  · rw [hops, hqueued, hexecuting]; exact h.posted
  · rw [hops, hexecuting]; exact h.inProgress
  · exact ⟨by rw [hops, hu], by rw [hops], by rw [hops], (hkept u (.inl hu)).1⟩

/-! ## Opening -/

/-- A free slot has no deferred work and no operation. -/
theorem Inv.free_slot (h : σ.Inv) (hposted : (σ.reactor.operations tag).handlerPosted = false) :
    tag ∉ σ.queued ∧ tag ∉ σ.executing ∧
      (σ.reactor.operations tag).executionInProgress = false := by
  have hcount := h.posted tag
  rw [hposted, Bool.toNat_false] at hcount
  have hq : tag ∉ σ.queued := List.count_eq_zero.mp (by omega)
  have he : tag ∉ σ.executing := List.count_eq_zero.mp (by omega)
  exact ⟨hq, he, Bool.eq_false_iff.mpr fun hprog => he (h.inProgress tag hprog)⟩

/-- A socket that holds a registration has a valid handle. -/
theorem Inv.isReactorHandleValid (h : σ.Inv) {k : K} (hk : (σ.sockets k).registered = true) :
    (σ.sockets k).isReactorHandleValid = true := by
  obtain ⟨-, -, hlt⟩ := h.registered k hk
  have hsize := h.size
  refine decide_eq_true fun heq => ?_
  rw [heq] at hlt
  have hinvalid : 2 ^ 32 - 1 < σ.reactor.size := hlt
  omega

section Clients

variable [DecidableEq K] {k : K}

/-- Opening a socket takes a free slot or none, and a descriptor that no entry holds. -/
theorem Inv.doOpenSocket (h : σ.Inv) {fd : NativeHandle}
    (hfd : σ.reactor.kernel.isOpen fd = false) (resources : Bool) :
    (σ.doOpenSocket k fd resources).Inv ∧
      ∀ u, (σ.reactor.operations u).valid = true →
        σ.Survives (σ.doOpenSocket k fd resources) u := by
  -- the kernel gives out a descriptor that was closed, so no entry holds it
  have hfresh {fd' : NativeHandle} (hopen : σ.reactor.kernel.isOpen fd' = true) : fd' ≠ fd := by
    rintro rfl
    rw [hopen] at hfd
    cases hfd
  simp only [State.doOpenSocket]
  split
  · rename_i hhandle
    have hnot : (σ.sockets k).registered = false := by
      refine Bool.eq_false_iff.mpr fun hk => ?_
      have hvalid := h.isReactorHandleValid hk
      simp only [BasicSocket.isReactorHandleValid] at hvalid hhandle
      simp [hvalid] at hhandle
    split
    · rename_i reactor tag hreg
      -- the slot that was found is free: no operation of it is queued or executing
      obtain ⟨hlt, hvalid, hposted, used, rfl⟩ := EpollReactor.registerImpl_ok (by decide) hreg
      obtain ⟨hnq, hne, hidle⟩ := h.free_slot hposted
      obtain ⟨hrel, hclose⟩ := (h.entry tag).idle hidle
      have hkept (u : HandlerTag) (hholds : Holds (σ.reactor.operations u)) :
          Function.update σ.reactor.kernel.isOpen fd true
            (σ.reactor.operations u).ioSource = true :=  by
        have hopen := (h.entry u).isOpen hholds
        rwa [Function.update_of_ne (hfresh hopen)]
      refine ⟨h.update tag rfl rfl ⟨?_, ?_, ?_⟩ ?_ ?_ ?_ ?_ ?_ ?_ ?_, fun u hu => ?_⟩
      · simp [setSocket, EpollReactor.registeredEntry, Kernel.openFd, hrel, hclose]
      · simp [EpollReactor.registeredEntry, hclose]
      · simp [EpollReactor.registeredEntry, hrel, hclose]
      · intro u _ hholds
        have hne := hfresh ((h.entry u).isOpen hholds)
        refine ⟨hkept u hholds, ?_⟩
        simp [setSocket, Kernel.openFd, Function.update_of_ne hne]
      · intro _ u _ hholds
        exact (hfresh ((h.entry u).isOpen hholds)).symm
      · intro k' hk'
        by_cases hkk : k' = k
        · subst hkk
          exact .inr ⟨by simp [setSocket], rfl, rfl, hlt⟩
        · simp only [setSocket, Function.update_of_ne hkk] at hk' ⊢
          exact .inl ⟨h.ne_of_registered hvalid hk', hk', trivial⟩
      · intro k' hk' _
        have hkk : k' ≠ k := by
          rintro rfl
          rw [hk'] at hnot
          cases hnot
        simp only [setSocket, Function.update_of_ne hkk]
        exact ⟨hk', trivial⟩
      · exact fun _ => ⟨k, by simp [setSocket], by simp [setSocket]⟩
      · intro u
        by_cases hu : u = tag
        · subst hu
          simp [setSocket, List.count_eq_zero_of_not_mem hnq, List.count_eq_zero_of_not_mem hne]
        · simpa [setSocket, Function.update_of_ne hu] using h.posted u
      · intro u
        by_cases hu : u = tag
        · subst hu
          simp [setSocket, EpollReactor.registeredEntry, hidle]
        · simpa [setSocket, Function.update_of_ne hu] using h.inProgress u
      · have hut : u ≠ tag := by
          rintro rfl
          rw [hu] at hvalid
          cases hvalid
        exact survives_of_ne rfl hut hu (hkept u (.inl hu))
    · -- the registration has failed, and the descriptor is closed again
      rename_i reactor ec hreg
      obtain ⟨used, rfl⟩ := EpollReactor.registerImpl_error hreg
      refine h.unrelated rfl rfl (fun k' => ?_) (fun fd' hopen => ?_) rfl rfl
      · by_cases hk : k' = k
        · subst hk; simp [setSocket]
        · simp [setSocket, Function.update_of_ne hk]
      · have hne := hfresh hopen
        simpa [setSocket, Kernel.openFd, Kernel.closeFd, Function.update_of_ne hne] using hopen
  · -- the socket keeps the handle that it has, and nothing is registered
    refine h.unrelated rfl rfl (fun k' => ?_) (fun fd' hopen => ?_) rfl rfl
    · by_cases hk : k' = k
      · subst hk; simp [setSocket, BasicSocket.setOpen]
      · simp [setSocket, Function.update_of_ne hk]
    · have hne := hfresh hopen
      simpa [setSocket, Kernel.openFd, Function.update_of_ne hne] using hopen

/-! ## Closing and destroying -/

/-- A socket gives up its registration: its entry becomes invalid and the descriptors of the other
entries are kept. -/
theorem Inv.giveUp (h : σ.Inv) (hk : (σ.sockets k).registered = true)
    (htag : (σ.sockets k).reactorHandle = tag) {sock : BasicSocket}
    (hsock : sock.registered = false) {reactor : EpollReactor K}
    (hsize : reactor.size = σ.reactor.size)
    (hops : reactor.operations = Function.update σ.reactor.operations tag entry)
    (hvalid : entry.valid = false)
    (hio : entry.ioSource = (σ.reactor.operations tag).ioSource)
    (hposted : entry.handlerPosted = (σ.reactor.operations tag).handlerPosted)
    (hprogress : entry.executionInProgress = (σ.reactor.operations tag).executionInProgress)
    (hentry : EntryOk reactor.kernel entry)
    (hkernel : ∀ fd, fd ≠ (σ.reactor.operations tag).ioSource →
      reactor.kernel.isOpen fd = σ.reactor.kernel.isOpen fd ∧
      reactor.kernel.interest fd = σ.reactor.kernel.interest fd) :
    ({ σ with reactor }.setSocket k sock).Inv ∧
    ∀ u k', σ.Registered u k' → k' ≠ k → σ.Survives ({ σ with reactor }.setSocket k sock) u := by
  obtain ⟨hown, hhandler, -⟩ := h.registered k hk
  rw [htag] at hown hhandler
  -- the entries of the other sockets are other entries, with other descriptors
  have hother (u : HandlerTag) (k' : K) (hreg : σ.Registered u k') (hne : k' ≠ k) : u ≠ tag := by
    rintro rfl
    rw [hreg.2] at hhandler
    exact hne (Option.some.inj hhandler)
  have hfd (u : HandlerTag) (hu : u ≠ tag) (hholds : Holds (σ.reactor.operations u)) :=
    hkernel _ (h.distinct u tag hu hholds (.inl hown))
  refine ⟨h.update tag hsize hops hentry (fun u hu hholds => ?_) (fun _ u hu hholds => ?_)
    (fun k' hk' => .inl ?_) (fun k' hk' hne => ?_) (fun hv => ?_) (fun u => ?_) (fun u => ?_),
    fun u k' hreg hne => ?_⟩
  · obtain ⟨hopen, hint⟩ := hfd u hu hholds
    exact ⟨hopen.trans ((h.entry u).isOpen hholds), fun hi => by rw [← hint] at hi; exact hi⟩
  · rw [hio]
    exact h.distinct tag u hu.symm (.inl hown) hholds
  · have hkk : k' ≠ k := by
      rintro rfl
      simp only [setSocket, Function.update_self, hsock] at hk'
      cases hk'
    simp only [setSocket, Function.update_of_ne hkk] at hk' ⊢
    obtain ⟨hv, hh, -⟩ := h.registered k' hk'
    exact ⟨hother _ k' ⟨hv, hh⟩ hkk, hk', trivial⟩
  · have hkk : k' ≠ k := by
      rintro rfl
      exact hne htag
    simp only [setSocket, Function.update_of_ne hkk]
    exact ⟨hk', trivial⟩
  · rw [hvalid] at hv
    cases hv
  · by_cases hu : u = tag
    · subst hu; simpa [setSocket, hops, hposted] using h.posted u
    · simpa [setSocket, hops, Function.update_of_ne hu] using h.posted u
  · by_cases hu : u = tag
    · subst hu; simpa [setSocket, hops, hprogress] using h.inProgress u
    · simpa [setSocket, hops, Function.update_of_ne hu] using h.inProgress u
  · have hu := hother u k' hreg hne
    exact survives_of_ne hops hu hreg.1
      ((hfd u hu (.inl hreg.1)).1.trans ((h.entry u).isOpen (.inl hreg.1)))

/-- A socket that holds its registration deregisters its own entry. The handler and the descriptor
of the entry are released at once, or left to its operation. -/
theorem Inv.deregister (h : σ.Inv) (hk : (σ.sockets k).registered = true) {sock : BasicSocket}
    (hsock : sock.registered = false) {reactor : EpollReactor K} {res : Except ErrorCode Unit}
    (hreactor : σ.reactor.derigsterImpl (σ.sockets k).reactorHandle true = (reactor, res)) :
    res = .ok () ∧ ({ σ with reactor }.setSocket k sock).Inv ∧
    ∀ u k', σ.Registered u k' → k' ≠ k →
      σ.Survives ({ σ with reactor }.setSocket k sock) u := by
  obtain ⟨hvalid, -, -⟩ := h.registered k hk
  generalize htag : (σ.sockets k).reactorHandle = tag at hvalid hreactor
  obtain ⟨hopen, hint, hrel, hclose⟩ := (h.entry tag).live hvalid
  cases hexec : (σ.reactor.operations tag).executionInProgress with
  | false =>
    -- no operation is executing: the descriptor is closed here
    rw [EpollReactor.derigsterImpl_idle hvalid hexec hopen hint] at hreactor
    obtain ⟨rfl, rfl⟩ := Prod.mk.inj hreactor
    refine ⟨rfl, h.giveUp hk htag hsock rfl rfl rfl rfl rfl rfl
      ⟨by simp, by simp [hclose], by simp [hrel, hclose]⟩ fun fd hfd => ?_⟩
    simp [Kernel.closeFd, Function.update_of_ne hfd]
  | true =>
    -- the close is left to the executing operation
    rw [EpollReactor.derigsterImpl_executing hvalid hexec hopen hint] at hreactor
    obtain ⟨rfl, rfl⟩ := Prod.mk.inj hreactor
    refine ⟨rfl, h.giveUp hk htag hsock rfl rfl rfl rfl rfl rfl
      ⟨by simp, fun _ => hopen, fun _ => hexec⟩ fun fd hfd => ?_⟩
    simp [Function.update_of_ne hfd]

omit [DecidableEq K] in
/-- Nothing happens to the entries in a step that changes nothing. -/
theorem Inv.survives_refl (h : σ.Inv) {u : HandlerTag}
    (hu : (σ.reactor.operations u).valid = true) : σ.Survives σ u :=
  ⟨hu, rfl, rfl, ((h.entry u).live hu).1⟩

/-- `Close()` of a socket without a stale handle. -/
theorem Inv.close (h : σ.Inv) (hC : σ.NoStaleHandle (.close k)) :
    (σ.close k).Inv ∧ ∀ u k', σ.Registered u k' → k' ≠ k → σ.Survives (σ.close k) u := by
  have hkeep : σ.Inv ∧ ∀ u k', σ.Registered u k' → k' ≠ k → σ.Survives σ u :=
    ⟨h, fun u k' hreg _ => h.survives_refl hreg.1⟩
  simp only [State.close]
  split
  · exact hkeep
  · rename_i hopen
    rcases hres : σ.reactor.derigsterImpl (σ.sockets k).reactorHandle true with ⟨reactor, res⟩
    rcases hC with hclosed | hk | hvalid
    · exact absurd hclosed hopen
    · have hdereg (sock : BasicSocket) (hsock : sock.registered = false) :=
        h.deregister hk hsock hres
      obtain ⟨rfl, -, -⟩ := hdereg { σ.sockets k with registered := false } rfl
      refine (hdereg _ ?_).2
      split <;> rfl
    · rw [EpollReactor.derigsterImpl_of_not_valid hvalid] at hres
      obtain ⟨rfl, rfl⟩ := Prod.mk.inj hres
      exact hkeep

/-- The destruction of a socket without a stale handle. -/
theorem Inv.destroy (h : σ.Inv) (hC : σ.NoStaleHandle (.destroy k)) :
    (σ.destroy k).Inv ∧ ∀ u k', σ.Registered u k' → k' ≠ k → σ.Survives (σ.destroy k) u := by
  have hgone {sock : BasicSocket} (hreg : sock.registered = (σ.sockets k).registered)
      (hhandle : sock.reactorHandle = (σ.sockets k).reactorHandle) :
      (σ.setSocket k sock).Inv ∧
        ∀ u k', σ.Registered u k' → k' ≠ k → σ.Survives (σ.setSocket k sock) u := by
    have hsockets (k' : K) : ((σ.setSocket k sock).sockets k').registered =
        (σ.sockets k').registered ∧
        ((σ.setSocket k sock).sockets k').reactorHandle = (σ.sockets k').reactorHandle := by
      by_cases hkk : k' = k
      · subst hkk; simp [setSocket, hreg, hhandle]
      · simp [setSocket, Function.update_of_ne hkk]
    have hunrelated : (σ.setSocket k sock).Inv ∧ ∀ u, (σ.reactor.operations u).valid = true →
        σ.Survives (σ.setSocket k sock) u := by
      refine h.unrelated rfl rfl hsockets ?_ rfl rfl
      intro fd hopen
      exact ⟨hopen, id⟩
    exact ⟨hunrelated.1, fun u k' hu _ => hunrelated.2 u hu.1⟩
  simp only [State.destroy]
  split
  · exact hgone rfl rfl
  · rename_i hopen
    rcases hC with hclosed | hk | hvalid
    · exact absurd hclosed hopen
    · exact (h.deregister hk rfl rfl).2
    · -- the handle names no valid entry, so nothing is deregistered
      rw [EpollReactor.derigsterImpl_of_not_valid hvalid]
      refine hgone (Bool.eq_false_iff.mpr fun hk => ?_).symm rfl
      exact h.ne_of_registered hvalid hk rfl

/-- A socket with a stale handle, closed or destroyed, deregisters the entry of another socket. -/
theorem Inv.stale (h : σ.Inv) (hopen : (σ.sockets k).isClosed = false)
    (hk : (σ.sockets k).registered = false)
    (hvalid : (σ.reactor.operations (σ.sockets k).reactorHandle).valid = true) :
    ∃ k', k' ≠ k ∧ σ.Registered (σ.sockets k).reactorHandle k' ∧
      ¬ σ.Survives (σ.close k) (σ.sockets k).reactorHandle ∧
      ¬ σ.Survives (σ.destroy k) (σ.sockets k).reactorHandle := by
  obtain ⟨k', hk', hhandle⟩ := h.valid _ hvalid
  obtain ⟨hv, hh, -⟩ := h.registered k' hk'
  rw [hhandle] at hh
  obtain ⟨hfd, hint, -⟩ := (h.entry _).live hvalid
  obtain ⟨hgone, hok⟩ := EpollReactor.derigsterImpl_valid hvalid hfd hint
  -- the entry is held by a socket that is registered, unlike this one
  have hne : k' ≠ k := by
    rintro rfl
    rw [hk'] at hk
    cases hk
  refine ⟨k', hne, ⟨hvalid, hh⟩, fun hsurv => ?_, fun hsurv => ?_⟩
  · rcases hres : σ.reactor.derigsterImpl (σ.sockets k).reactorHandle true with ⟨reactor, res⟩
    rw [hres] at hgone hok
    obtain rfl : res = .ok () := hok
    have hlive := hsurv.1
    simp only [State.close, hopen, Bool.false_eq_true, ↓reduceIte, hres, setSocket] at hlive
    rw [hgone] at hlive
    cases hlive
  · have hclosed : BasicSocket.isClosed { σ.sockets k with destroyed := true } = false := hopen
    have hlive := hsurv.1
    simp only [State.destroy, hclosed, Bool.false_eq_true, ↓reduceIte, setSocket] at hlive
    rw [hgone] at hlive
    cases hlive

/-! ## Runs -/

/-- Every step without a stale handle keeps the invariant and isolates the other sockets. -/
theorem Inv.step (h : σ.Inv) {a : Action K} (hC : σ.NoStaleHandle a)
    (hσ' : σ.step a = some σ') : σ'.Inv ∧ σ.Isolates a σ' := by
  -- only `Close()` and the destructor end a registration
  have isolate {a : Action K} (hstep : σ'.Inv ∧
      ∀ u, (σ.reactor.operations u).valid = true → σ.Survives σ' u) :
      σ'.Inv ∧ σ.Isolates a σ' :=
    ⟨hstep.1, fun tag k hreg _ => hstep.2 tag hreg.1⟩
  cases a with
  | openSocket k fd resources =>
    simp only [State.step] at hσ'
    split at hσ'
    · cases hσ'
    · rename_i hfd
      simp only [not_or, Bool.not_eq_true] at hfd
      split at hσ'
      · obtain rfl := Option.some.inj hσ'
        exact isolate ⟨h, fun u hu => h.survives_refl hu⟩
      · obtain rfl := Option.some.inj hσ'
        exact isolate (h.doOpenSocket hfd.2 resources)
  | close k =>
    simp only [State.step] at hσ'
    split at hσ'
    · cases hσ'
    · obtain rfl := Option.some.inj hσ'
      obtain ⟨hinv, hsurv⟩ := h.close hC
      exact ⟨hinv, fun tag k' hreg hends => hsurv tag k' hreg (Ne.symm hends)⟩
  | destroy k =>
    simp only [State.step] at hσ'
    split at hσ'
    · cases hσ'
    · obtain rfl := Option.some.inj hσ'
      obtain ⟨hinv, hsurv⟩ := h.destroy hC
      exact ⟨hinv, fun tag k' hreg hends => hsurv tag k' hreg (Ne.symm hends)⟩
  | start k opType resources =>
    simp only [State.step] at hσ'
    split at hσ'
    · cases hσ'
    · obtain rfl := Option.some.inj hσ'
      exact isolate (h.start _ opType resources)
  | event event =>
    simp only [State.step] at hσ'
    split at hσ'
    · obtain rfl := Option.some.inj hσ'
      exact isolate (h.handleEvent event)
    · cases hσ'
  | begin =>
    simp only [State.step] at hσ'
    split at hσ'
    · rename_i hq
      obtain rfl := Option.some.inj hσ'
      exact isolate (h.beginOperation hq)
    · cases hσ'
  | finish tag =>
    simp only [State.step] at hσ'
    split at hσ'
    · rename_i hexec
      obtain rfl := Option.some.inj hσ'
      exact isolate (h.finish hexec)
    · cases hσ'

omit [DecidableEq K] in
/-- The invariant holds before the first socket is opened. -/
theorem Inv.init {size : ℕ} (hsize : size < 2 ^ 16) (isOpen : NativeHandle → Bool) :
    ({ reactor := { size, kernel := { isOpen } } } : State K).Inv where
  size := hsize
  entry tag := ⟨by simp, by simp, by simp⟩
  distinct tag u _ hholds := by simp [Holds] at hholds
  registered k hk := by cases hk
  valid tag hv := by cases hv
  posted tag := by simp
  inProgress tag hp := by cases hp

/-- The invariant holds in every state reached without closing or destroying a stale socket. -/
theorem Inv.of_reachable (hσ : (machine K).ReachableIn NoStaleHandle σ) : σ.Inv :=
  hσ.invariant (fun _ ⟨_, hsize, isOpen, h⟩ => h ▸ Inv.init hsize isOpen)
    fun _ _ _ h hC hσ' => (h.step hC hσ').1

end Clients

end State

open State in
/-- Isolation of sockets. In every run in which no socket with a stale handle is closed or
destroyed, a step leaves the entries of all sockets that it does not itself close or destroy
registered, with their handlers and their open descriptors; and a step that goes on from such a run
leaves them so if and only if it does not close or destroy a socket with a stale handle. -/
theorem socket_isolation_iff [DecidableEq K] {σ σ' : State K} {a : Action K}
    (hσ : (machine K).ReachableIn NoStaleHandle σ) (hσ' : (machine K).step σ a = some σ') :
    σ.Isolates a σ' ↔ σ.NoStaleHandle a := by
  have h := Inv.of_reachable hσ
  refine ⟨fun hiso => ?_, fun hC => (h.step hC hσ').2⟩
  by_contra hstale
  cases a with
  | close k =>
    simp only [NoStaleHandle, not_or, Bool.not_eq_true, Bool.not_eq_false] at hstale
    obtain ⟨k', hne, hreg, hclose, -⟩ := h.stale hstale.1 hstale.2.1 hstale.2.2
    simp only [machine, State.step] at hσ'
    split at hσ'
    · cases hσ'
    · obtain rfl := Option.some.inj hσ'
      exact hclose (hiso _ k' hreg (Ne.symm hne))
  | destroy k =>
    simp only [NoStaleHandle, not_or, Bool.not_eq_true, Bool.not_eq_false] at hstale
    obtain ⟨k', hne, hreg, -, hdestroy⟩ := h.stale hstale.1 hstale.2.1 hstale.2.2
    simp only [machine, State.step] at hσ'
    split at hσ'
    · cases hσ'
    · obtain rfl := Option.some.inj hσ'
      exact hdestroy (hiso _ k' hreg (Ne.symm hne))
  | _ => exact hstale trivial

open State in
/-- Two sockets are open in the slots `0` and `1`, and the first one is closed from inside its own
callback: the entry of the second one survives. -/
theorem socket_isolation_iff_close_in_callback :
    ∃ σ σ' : State (Fin 2), (machine (Fin 2)).ReachableIn NoStaleHandle σ ∧
      (machine (Fin 2)).step σ (.close 0) = some σ' ∧ σ.Registered 1 1 ∧
      σ.Isolates (.close 0) σ' := by
  have hσ := ToMathlib.Machine.reachableIn_get_run (M := machine (Fin 2)) (C := NoStaleHandle)
    (s := { reactor := { size := 2 } })
    (l := [.openSocket 0 5 true, .openSocket 1 6 true, .event ⟨EPOLLIN, 0⟩, .begin])
    ⟨2, by decide, fun _ => false, rfl⟩ (by decide)
  exact ⟨_, _, hσ, rfl, by decide, (socket_isolation_iff hσ rfl).mpr (by decide)⟩

open State in
/-- Socket `0` is closed from inside its own callback; its operation ends and slot `0` is free.
Socket `1` is opened and takes the slot. Destroying socket `0` then deregisters socket `1` and
closes its descriptor. -/
theorem socket_isolation_stale_handle :
    ∃ σ σ' : State (Fin 2), (machine (Fin 2)).Reachable σ ∧
      (machine (Fin 2)).step σ (.destroy 0) = some σ' ∧ σ.Registered 0 1 ∧
      ¬ σ.Isolates (.destroy 0) σ' := by
  have hσ := ToMathlib.Machine.reachableIn_get_run (M := machine (Fin 2))
    (C := ToMathlib.Machine.Always) (s := { reactor := { size := 2 } })
    (l := [.openSocket 0 5 true, .event ⟨EPOLLIN, 0⟩, .begin, .close 0, .finish 0,
      .openSocket 1 6 true])
    ⟨2, by decide, fun _ => false, rfl⟩ (by decide)
  refine ⟨_, _, hσ, rfl, by decide, fun hiso => ?_⟩
  exact absurd (hiso 0 1 (by decide) Fin.zero_ne_one).1 (by decide)

end Asrt.Socket
