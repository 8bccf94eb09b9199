import Asrt.Socket.Isolation

/-!
# Coherence of sockets and their reactor

A socket that reports to be open should be registered: the entry that its reactor handle names is
valid, was registered by this socket and monitors the descriptor of the socket. `Open()`,
`Connect()` and the assignment of an accepted handle all end in `AssignNativeHandle()`, which
registers the socket only if its reactor handle is `kInvalidHandlerTag`. `Close()` deregisters the
entry and keeps the handle, so the second life of a socket goes without a registration.

The runs considered here are those of `BasicSocket.lean` with two more calls, `Connect()` and the
assignment of an accepted handle. `ConnectAsync()` is the start of an asynchronous operation there.

## Main results

- `sockets_coherent_iff`: in a run, all sockets are coherent at all times if and only if no socket
  that ever had a registration is opened or given an accepted handle, and no socket is closed while
  its handler executes.
-/

namespace Asrt.Socket

open Reactor ToMathlib

variable {K : Type}

/-- The calls on the sockets, and the steps of the kernel, the reactor thread and the executor
threads. -/
inductive Call (K : Type)
  | base (a : Action K)
  /-- `Connect()`; the arguments are those of `Open()`. -/
  | connect (k : K) (fd : NativeHandle) (resources : Bool)
  /-- An acceptor gives the descriptor `fd` that `accept4()` has returned to socket `k`. -/
  | assignAcceptedHandle (k : K) (fd : NativeHandle) (resources : Bool)
deriving DecidableEq, Repr

namespace State

/-- `TryOpenSocket()`: a socket that is open is left as it is. -/
def tryOpenSocket [DecidableEq K] (σ : State K) (k : K) (fd : NativeHandle) (resources : Bool) :
    State K :=
  if !(σ.sockets k).isClosed then σ else σ.doOpenSocket k fd resources

/-- The step labelled by a call, if it is enabled. The descriptors that `socket(2)` and `accept4()`
return are not open before. `connect(2)` itself does not concern the socket and its registration. -/
def call [DecidableEq K] (σ : State K) : Call K → Option (State K)
  | .base a => σ.step a
  | .connect k fd resources =>
    if (σ.sockets k).destroyed ∨ σ.reactor.kernel.isOpen fd then none
    else some (σ.tryOpenSocket k fd resources)
  | .assignAcceptedHandle k fd resources =>
    -- unlike `Open()`, `AssignAcceptedHandle()` does not look whether the socket is closed
    if (σ.sockets k).destroyed ∨ σ.reactor.kernel.isOpen fd then none
    else some (σ.doOpenSocket k fd resources)

/-- The entry that the reactor handle of an open socket names is valid, belongs to the socket and
monitors the descriptor of the socket. -/
def CoherentAt (σ : State K) (k : K) : Prop :=
  (σ.sockets k).destroyed = false → (σ.sockets k).isClosed = false →
    σ.Registered (σ.sockets k).reactorHandle k ∧
    (σ.reactor.operations (σ.sockets k).reactorHandle).ioSource = (σ.sockets k).socketHandle

/-- All sockets are coherent with the reactor. -/
def Coherent (σ : State K) : Prop := ∀ k, σ.CoherentAt k

/-- A socket that has a reactor handle is not opened and not given an accepted handle, and no socket
is closed while its handler executes. -/
def FirstLife (σ : State K) : Call K → Prop
  | .base (.openSocket k _ _) | .connect k _ _ =>
    (σ.sockets k).isClosed = true → (σ.sockets k).isReactorHandleValid = false
  | .assignAcceptedHandle k _ _ => (σ.sockets k).isReactorHandleValid = false
  | .base (.close k) => (σ.sockets k).isClosed = false →
    (σ.reactor.operations (σ.sockets k).reactorHandle).executionInProgress = false
  | .base _ => True

instance (σ : State K) : (c : Call K) → Decidable (σ.FirstLife c)
  | .base (.openSocket _ _ _) | .connect _ _ _ | .base (.close _) =>
    inferInstanceAs (Decidable (_ → _))
  | .assignAcceptedHandle _ _ _ => inferInstanceAs (Decidable (_ = _))
  | .base (.destroy _) | .base (.start _ _ _) | .base (.event _) | .base .begin
  | .base (.finish _) => inferInstanceAs (Decidable True)

variable {σ σ' : State K} {k : K}

/-- A coherent socket stays so if it does not change and its entry survives. -/
theorem CoherentAt.of_survives (h : σ.CoherentAt k) (hsock : σ'.sockets k = σ.sockets k)
    (hsurv : σ.Registered (σ.sockets k).reactorHandle k →
      σ.Survives σ' (σ.sockets k).reactorHandle) : σ'.CoherentAt k := by
  intro hlive hopen
  rw [hsock] at hlive hopen ⊢
  obtain ⟨hreg, hio⟩ := h hlive hopen
  obtain ⟨hvalid, hhandler, hsource, -⟩ := hsurv hreg
  exact ⟨⟨hvalid, hhandler.trans hreg.2⟩, hsource.trans hio⟩

/-- A step of the reactor or an executor thread keeps the sockets coherent. -/
theorem Coherent.of_survives (h : σ.Coherent) (hsockets : σ'.sockets = σ.sockets)
    (hsurv : ∀ u, (σ.reactor.operations u).valid = true → σ.Survives σ' u) : σ'.Coherent :=
  fun k => (h k).of_survives (congrFun hsockets k) fun hreg => hsurv _ hreg.1

/-- An entry that socket `k` has registered is the registration that the socket holds. -/
theorem Inv.registered_of_entry (h : σ.Inv) {tag : HandlerTag} (hreg : σ.Registered tag k) :
    (σ.sockets k).registered = true := by
  obtain ⟨k', hk', htag⟩ := h.valid tag hreg.1
  -- the entry has one handler, so the two sockets are the same
  obtain ⟨-, hhandler, -⟩ := h.registered k' hk'
  rw [htag, hreg.2] at hhandler
  obtain rfl := Option.some.inj hhandler
  exact hk'

/-- An open socket that is coherent holds its registration. -/
theorem CoherentAt.registered (h : σ.CoherentAt k) (hinv : σ.Inv)
    (hlive : (σ.sockets k).destroyed = false) (hopen : (σ.sockets k).isClosed = false) :
    (σ.sockets k).registered = true :=
  hinv.registered_of_entry (h hlive hopen).1

/-- A coherent socket has no stale handle. -/
theorem CoherentAt.noStaleHandle (h : σ.CoherentAt k) (hinv : σ.Inv)
    (hlive : (σ.sockets k).destroyed = false) :
    σ.NoStaleHandle (.close k) ∧ σ.NoStaleHandle (.destroy k) := by
  cases hopen : (σ.sockets k).isClosed with
  | true => exact ⟨.inl hopen, .inl hopen⟩
  | false =>
    have hk := h.registered hinv hlive hopen
    exact ⟨.inr (.inl hk), .inr (.inl hk)⟩

section Clients

variable [DecidableEq K]

@[simp]
theorem setSocket_sockets_self (σ : State K) (k : K) (sock : BasicSocket) :
    (σ.setSocket k sock).sockets k = sock := by
  simp [setSocket]

theorem setSocket_sockets_of_ne (σ : State K) {k k' : K} (hk : k' ≠ k) (sock : BasicSocket) :
    (σ.setSocket k sock).sockets k' = σ.sockets k' := by
  simp [setSocket, Function.update_of_ne hk]

@[simp]
theorem setSocket_reactor (σ : State K) (k : K) (sock : BasicSocket) :
    (σ.setSocket k sock).reactor = σ.reactor := rfl

/-- A step that changes one socket only and lets the entries of the others survive keeps the
coherence of the others. -/
theorem Coherent.of_ne (h : σ.Coherent)
    (hsockets : ∀ k', k' ≠ k → σ'.sockets k' = σ.sockets k')
    (hsurv : ∀ u k', σ.Registered u k' → k' ≠ k → σ.Survives σ' u) (hk : σ'.CoherentAt k) :
    σ'.Coherent := by
  intro k'
  by_cases hkk : k' = k
  · subst hkk
    exact hk
  · exact (h k').of_survives (hsockets k' hkk) fun hreg => hsurv _ k' hreg hkk

/-! ## Opening -/

theorem doOpenSocket_sockets_of_ne (σ : State K) {k k' : K} (hk : k' ≠ k) (fd : NativeHandle)
    (resources : Bool) : (σ.doOpenSocket k fd resources).sockets k' = σ.sockets k' := by
  simp only [State.doOpenSocket]
  split
  · split <;> rw [setSocket_sockets_of_ne _ hk]
  · rw [setSocket_sockets_of_ne _ hk]

/-- The first life of a socket: it is registered for its descriptor, or stays closed. -/
theorem coherentAt_doOpenSocket {fd : NativeHandle} {resources : Bool}
    (hclosed : (σ.sockets k).isClosed = true)
    (hfirst : (σ.sockets k).isReactorHandleValid = false) :
    (σ.doOpenSocket k fd resources).CoherentAt k := by
  have hhandle : BasicSocket.isReactorHandleValid { σ.sockets k with socketHandle := fd } = false :=
    hfirst
  simp only [State.doOpenSocket, hhandle, Bool.not_false, ↓reduceIte]
  split
  · rename_i reactor tag hreg
    obtain ⟨-, -, -, used, rfl⟩ := EpollReactor.registerImpl_ok (by decide) hreg
    intro _ _
    simp [Registered, EpollReactor.registeredEntry, BasicSocket.setOpen]
  · -- without a free entry the socket is not set to open
    intro _ hopen
    have hsame : BasicSocket.isClosed { σ.sockets k with socketHandle := fd } = true := hclosed
    rw [setSocket_sockets_self, hsame] at hopen
    cases hopen

/-- A socket that has a reactor handle counts as open after `AssignNativeHandle()`, but no entry
monitors its new descriptor. -/
theorem not_coherentAt_doOpenSocket (h : σ.Inv) {fd : NativeHandle} {resources : Bool}
    (hlive : (σ.sockets k).destroyed = false) (hfd : σ.reactor.kernel.isOpen fd = false)
    (hhandle : (σ.sockets k).isReactorHandleValid = true) :
    ¬ (σ.doOpenSocket k fd resources).CoherentAt k := by
  have hkept : BasicSocket.isReactorHandleValid { σ.sockets k with socketHandle := fd } = true :=
    hhandle
  simp only [State.doOpenSocket, hkept, Bool.not_true, Bool.false_eq_true, ↓reduceIte]
  intro hcoh
  have hopen : BasicSocket.isClosed
      (BasicSocket.setOpen { σ.sockets k with socketHandle := fd }) = false := by
    simp [BasicSocket.isClosed, BasicSocket.setOpen, kOpen, kClosed]
  obtain ⟨⟨hvalid, -⟩, hio⟩ := hcoh (by simpa [BasicSocket.setOpen] using hlive)
    (by simpa using hopen)
  simp only [setSocket_reactor, setSocket_sockets_self, BasicSocket.setOpen] at hvalid hio
  -- the entry is an old one, and the descriptor of a valid entry was open before
  obtain ⟨hold, -⟩ := (h.entry _).live hvalid
  rw [hio, hfd] at hold
  cases hold

/-- A socket is coherent after `AssignNativeHandle()` if and only if it had no reactor handle. -/
theorem Coherent.doOpenSocket_iff (h : σ.Coherent) (hinv : σ.Inv) {fd : NativeHandle}
    {resources : Bool} (hlive : (σ.sockets k).destroyed = false)
    (hfd : σ.reactor.kernel.isOpen fd = false) :
    (σ.doOpenSocket k fd resources).Coherent ↔ (σ.sockets k).isReactorHandleValid = false := by
  constructor
  · intro hcoh
    refine Bool.eq_false_iff.mpr fun hhandle => ?_
    exact not_coherentAt_doOpenSocket hinv hlive hfd hhandle (hcoh k)
  · intro hfirst
    -- an open socket is registered, and then it has a handle
    have hclosed : (σ.sockets k).isClosed = true := by
      refine Bool.not_eq_false _ |>.mp fun hopen => ?_
      have hvalid := hinv.isReactorHandleValid ((h k).registered hinv hlive hopen)
      rw [hfirst] at hvalid
      cases hvalid
    refine h.of_ne (fun k' hk => doOpenSocket_sockets_of_ne σ hk fd resources) ?_
      (coherentAt_doOpenSocket hclosed hfirst)
    intro u k' hreg _
    exact (hinv.doOpenSocket hfd resources).2 u hreg.1

/-! ## Closing and destroying -/

theorem close_sockets_of_ne (σ : State K) {k k' : K} (hk : k' ≠ k) :
    (σ.close k).sockets k' = σ.sockets k' := by
  simp only [State.close]
  split
  · rfl
  · split
    · rfl
    · rw [setSocket_sockets_of_ne _ hk]

/-- `Close()` of a registered socket closes it if and only if its handler does not execute. -/
theorem Inv.close_coherentAt_iff (h : σ.Inv) (hlive : (σ.sockets k).destroyed = false)
    (hopen : (σ.sockets k).isClosed = false) (hk : (σ.sockets k).registered = true) :
    (σ.close k).CoherentAt k ↔
      (σ.reactor.operations (σ.sockets k).reactorHandle).executionInProgress = false := by
  obtain ⟨hvalid, -, -⟩ := h.registered k hk
  obtain ⟨hfd, hint, -⟩ := (h.entry _).live hvalid
  cases hexec : (σ.reactor.operations (σ.sockets k).reactorHandle).executionInProgress with
  | false =>
    have hsock : (σ.close k).sockets k =
        BasicSocket.setClosed { σ.sockets k with registered := false } := by
      simp [State.close, hopen, EpollReactor.derigsterImpl_idle hvalid hexec hfd hint,
        EpollReactor.isInUseImpl, hexec]
    simp only [iff_true]
    intro _ hopen'
    rw [hsock] at hopen'
    cases hopen'
  | true =>
    -- `IsInUse()` still holds, so the socket stays open although its entry is invalid
    simp only [Bool.true_eq_false, iff_false]
    intro hcoh
    have hsock : (σ.close k).sockets k = { σ.sockets k with registered := false } := by
      simp [State.close, hopen, EpollReactor.derigsterImpl_executing hvalid hexec hfd hint,
        EpollReactor.isInUseImpl, hexec]
    have hentry : ((σ.close k).reactor.operations (σ.sockets k).reactorHandle).valid = false := by
      simp [State.close, hopen, EpollReactor.derigsterImpl_executing hvalid hexec hfd hint]
    have hkeep := hcoh (by rw [hsock]; exact hlive) (by rw [hsock]; exact hopen)
    rw [hsock] at hkeep
    rw [hkeep.1.1] at hentry
    cases hentry

theorem destroy_sockets_of_ne (σ : State K) {k k' : K} (hk : k' ≠ k) :
    (σ.destroy k).sockets k' = σ.sockets k' := by
  simp only [State.destroy]
  split <;> rw [setSocket_sockets_of_ne _ hk]

theorem destroy_destroyed (σ : State K) (k : K) : ((σ.destroy k).sockets k).destroyed = true := by
  simp only [State.destroy]
  split <;> simp

/-! ## Runs -/

/-- In a coherent state no base step closes or destroys a socket with a stale handle. -/
theorem Coherent.noStaleHandle (h : σ.Coherent) (hinv : σ.Inv) {a : Action K}
    (hσ' : σ.step a = some σ') : σ.NoStaleHandle a := by
  cases a with
  | close k =>
    simp only [State.step] at hσ'
    split at hσ'
    · cases hσ'
    · rename_i hlive
      exact ((h k).noStaleHandle hinv (Bool.eq_false_iff.mpr hlive)).1
  | destroy k =>
    simp only [State.step] at hσ'
    split at hσ'
    · cases hσ'
    · rename_i hlive
      exact ((h k).noStaleHandle hinv (Bool.eq_false_iff.mpr hlive)).2
  | _ => trivial

/-- Every step from a coherent state keeps the invariant of the sockets. -/
theorem Inv.call (h : σ.Inv) (hcoh : σ.Coherent) {c : Call K} (hσ' : σ.call c = some σ') :
    σ'.Inv := by
  cases c with
  | base a => exact (h.step (hcoh.noStaleHandle h hσ') hσ').1
  | connect k fd resources =>
    simp only [State.call, State.tryOpenSocket] at hσ'
    split at hσ'
    · cases hσ'
    · rename_i hfd
      simp only [not_or, Bool.not_eq_true] at hfd
      obtain rfl := Option.some.inj hσ'
      split
      · exact h
      · exact (h.doOpenSocket hfd.2 resources).1
  | assignAcceptedHandle k fd resources =>
    simp only [State.call] at hσ'
    split at hσ'
    · cases hσ'
    · rename_i hfd
      simp only [not_or, Bool.not_eq_true] at hfd
      obtain rfl := Option.some.inj hσ'
      exact (h.doOpenSocket hfd.2 resources).1

/-- `Open()` and `Connect()` do the same to the socket. -/
theorem call_openSocket (σ : State K) (k : K) (fd : NativeHandle) (resources : Bool) :
    σ.call (.base (.openSocket k fd resources)) = σ.call (.connect k fd resources) := by
  simp only [State.call, State.step, State.tryOpenSocket]
  split
  · rfl
  · split <;> rfl

/-- `Connect()` keeps the sockets coherent if and only if the socket is open already or has no
reactor handle. -/
theorem Coherent.connect_iff (h : σ.Coherent) (hinv : σ.Inv) {fd : NativeHandle} {resources : Bool}
    (hσ' : σ.call (.connect k fd resources) = some σ') :
    σ'.Coherent ↔
      ((σ.sockets k).isClosed = true → (σ.sockets k).isReactorHandleValid = false) := by
  simp only [State.call, State.tryOpenSocket] at hσ'
  split at hσ'
  · cases hσ'
  · rename_i hfd
    simp only [not_or, Bool.not_eq_true] at hfd
    obtain rfl := Option.some.inj hσ'
    cases hclosed : (σ.sockets k).isClosed with
    | false => simpa using h
    | true => simpa using h.doOpenSocket_iff hinv hfd.1 hfd.2

/-- `Close()` keeps the sockets coherent if and only if the socket is closed already or its handler
does not execute. -/
theorem Coherent.close_iff (h : σ.Coherent) (hinv : σ.Inv)
    (hlive : (σ.sockets k).destroyed = false) :
    (σ.close k).Coherent ↔ ((σ.sockets k).isClosed = false →
      (σ.reactor.operations (σ.sockets k).reactorHandle).executionInProgress = false) := by
  cases hopen : (σ.sockets k).isClosed with
  | true =>
    have hsame : σ.close k = σ := by simp [State.close, hopen]
    simpa [hsame] using h
  | false =>
    -- the entries of the other sockets survive in any case
    have hown := hinv.close_coherentAt_iff hlive hopen ((h k).registered hinv hlive hopen)
    simp only [forall_const]
    refine ⟨fun hcoh => hown.mp (hcoh k), fun hidle => ?_⟩
    refine h.of_ne (fun k' hk => close_sockets_of_ne σ hk) ?_ (hown.mpr hidle)
    exact (hinv.close ((h k).noStaleHandle hinv hlive).1).2

/-- The destruction of a socket keeps the other ones coherent. -/
theorem Coherent.destroy (h : σ.Coherent) (hinv : σ.Inv)
    (hlive : (σ.sockets k).destroyed = false) : (σ.destroy k).Coherent := by
  refine h.of_ne (fun k' hk => destroy_sockets_of_ne σ hk)
    (hinv.destroy ((h k).noStaleHandle hinv hlive).2).2 ?_
  intro hlive' _
  rw [destroy_destroyed] at hlive'
  cases hlive'

/-- A step from a coherent state leads to a coherent state if and only if it meets the condition. -/
theorem Coherent.call_iff (h : σ.Coherent) (hinv : σ.Inv) {c : Call K}
    (hσ' : σ.call c = some σ') : σ'.Coherent ↔ σ.FirstLife c := by
  cases c with
  | connect k fd resources => exact h.connect_iff hinv hσ'
  | assignAcceptedHandle k fd resources =>
    simp only [State.call] at hσ'
    split at hσ'
    · cases hσ'
    · rename_i hfd
      simp only [not_or, Bool.not_eq_true] at hfd
      obtain rfl := Option.some.inj hσ'
      exact h.doOpenSocket_iff hinv hfd.1 hfd.2
  | base a =>
    -- opening and closing have a condition, the other calls let every registered socket survive
    have hσ'' : σ.step a = some σ' := hσ'
    cases a with
    | openSocket k fd resources =>
      rw [call_openSocket] at hσ'
      exact h.connect_iff hinv hσ'
    | close k =>
      simp only [State.step] at hσ''
      split at hσ''
      · cases hσ''
      · rename_i hlive
        obtain rfl := Option.some.inj hσ''
        exact h.close_iff hinv (Bool.eq_false_iff.mpr hlive)
    | destroy k =>
      simp only [State.step] at hσ''
      split at hσ''
      · cases hσ''
      · rename_i hlive
        obtain rfl := Option.some.inj hσ''
        exact iff_of_true (h.destroy hinv (Bool.eq_false_iff.mpr hlive)) trivial
    | start k opType resources =>
      simp only [State.step] at hσ''
      split at hσ''
      · cases hσ''
      · obtain rfl := Option.some.inj hσ''
        exact iff_of_true (h.of_survives rfl (hinv.start _ opType resources).2) trivial
    | event event =>
      simp only [State.step] at hσ''
      split at hσ''
      · obtain rfl := Option.some.inj hσ''
        exact iff_of_true (h.of_survives rfl (hinv.handleEvent event).2) trivial
      · cases hσ''
    | begin =>
      simp only [State.step] at hσ''
      split at hσ''
      · rename_i tag rest hq
        obtain rfl := Option.some.inj hσ''
        have hsockets : (σ.beginOperation tag rest).sockets = σ.sockets := by
          unfold State.beginOperation
          split <;> rfl
        exact iff_of_true (h.of_survives hsockets (hinv.beginOperation hq).2) trivial
      · cases hσ''
    | finish tag =>
      simp only [State.step] at hσ''
      split at hσ''
      · rename_i hexec
        obtain rfl := Option.some.inj hσ''
        exact iff_of_true (h.of_survives rfl (hinv.finish hexec).2) trivial
      · cases hσ''

end Clients

end State

/-- The sockets with all their calls as a machine. -/
def callMachine (K : Type) [DecidableEq K] : Machine (State K) (Call K) where
  init := (machine K).init
  step := State.call

open State in
/-- In a run of any sockets over one reactor, every socket that is open is registered with its
descriptor in every state reached, if and only if no socket that ever had a registration is opened
again or given an accepted handle, and no socket is closed while its handler executes. -/
theorem sockets_coherent_iff [DecidableEq K] {σ : State K} (hσ : (callMachine K).init σ)
    (calls : List (Call K)) :
    (callMachine K).Along (fun _ _ σ' => σ'.Coherent) σ calls ↔
      (callMachine K).Along (fun σ c _ => σ.FirstLife c) σ calls := by
  refine Machine.along_iff_of_invariant (I := fun σ => σ.Inv ∧ σ.Coherent) ?_ ?_ ?_
  · obtain ⟨size, hsize, isOpen, rfl⟩ := hσ
    exact ⟨Inv.init hsize isOpen, fun k _ hopen => by cases hopen⟩
  · rintro σ c σ' ⟨hinv, hcoh⟩ hstep
    exact hcoh.call_iff hinv hstep
  · rintro σ c σ' ⟨hinv, hcoh⟩ hstep hcoh'
    exact ⟨hinv.call hcoh hstep, hcoh'⟩

open State in
/-- Two sockets, one opened and one given an accepted handle, are coherent while the first one is
closed. -/
theorem sockets_coherent_iff_two_sockets :
    ∃ σ : State (Fin 2), (callMachine (Fin 2)).init σ ∧
      (callMachine (Fin 2)).Along (fun _ _ σ' => σ'.Coherent) σ
        [.connect 0 5 true, .assignAcceptedHandle 1 6 true, .base (.close 0)] := by
  have hσ : (callMachine (Fin 2)).init { reactor := { size := 2 } } :=
    ⟨2, by decide, fun _ => false, rfl⟩
  refine ⟨_, hσ, (sockets_coherent_iff hσ _).mpr ?_⟩
  exact Machine.along_of_step (C := FirstLife) (.init hσ) (by decide) fun _ _ _ _ hC _ => hC

open State in
/-- A socket is opened, closed and opened again. It reports to be open with descriptor `6`, but the
entry that its handle names is not valid. -/
theorem sockets_coherent_reopened :
    ∃ σ : State (Fin 2), (callMachine (Fin 2)).Reachable σ ∧
      (σ.sockets 0).isClosed = false ∧ (σ.sockets 0).socketHandle = 6 ∧
      (σ.sockets 0).reactorHandle = 0 ∧ (σ.reactor.operations 0).valid = false ∧ ¬ σ.Coherent := by
  have hσ := Machine.reachableIn_get_run (M := callMachine (Fin 2)) (C := Machine.Always)
    (s := { reactor := { size := 2 } })
    (l := [.base (.openSocket 0 5 true), .base (.close 0), .base (.openSocket 0 6 true)])
    ⟨2, by decide, fun _ => false, rfl⟩ (by decide)
  refine ⟨_, hσ, by decide, by decide, by decide, by decide, fun hcoh => ?_⟩
  obtain ⟨⟨hvalid, -⟩, -⟩ := hcoh 0 (by decide) (by decide)
  revert hvalid
  decide

end Asrt.Socket
