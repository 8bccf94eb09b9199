import Asrt.Socket.CachedState

/-!
# What a socket keeps of the kernel's socket

A socket agrees with the kernel if its descriptor is open, non-blocking, bound and has a default
peer exactly as the socket says. It goes wrong where a socket is opened with the flag of an earlier
descriptor, where an accepted handle, which is always non-blocking, is given to a socket that does
not register, and where `Close()` does not close the socket at once.

## Main results

- `cached_state_agrees_iff`: the runs in which the socket agrees with the kernel at all times.
-/

namespace Asrt.Socket.KernelAgreement

open Reactor ToMathlib

namespace State

variable {σ τ : State} {opening : Opening} {fd : NativeHandle} {tag : Option HandlerTag}
  {matching succeeds : Bool}

/-! ## Agreement -/

/-- The descriptor of an open socket is as the socket says, and a closed one has no default peer. -/
structure Agrees (σ : State) : Prop where
  opened : σ.base.isClosed = false → σ.kernel σ.handle = some σ.cached
  closed : σ.base.isClosed = true → σ.hasDefaultPeer = false

/-- `Close()` finds the entry to be free and closes the socket. -/
def closes (σ : State) (stale : Deregistration) : Bool :=
  match σ.registration with
  | .idle _ => true
  | .executing _ | .closing _ => false
  | .none => stale = .free

/-- A closed socket is not opened with a flag that the new descriptor does not have. -/
def OpensAsFlagged (σ : State) (opening : Opening) : Prop :=
  σ.base.isClosed = true → opening.fd.isSome = true →
    σ.registers = true ∨ σ.isNonBlocking = σ.hasReactor

/-- The step keeps the socket in agreement with the kernel. -/
def Keeps (σ : State) : Action → Prop
  | .openSocket opening | .bind opening _ _ | .setDefaultPeer opening _ _ =>
    σ.OpensAsFlagged opening
  | .assignAcceptedHandle _ _ =>
    σ.registers = true ∨ σ.isNonBlocking = true ∧
      (σ.base.isClosed = false → σ.isBound = false ∧ σ.hasDefaultPeer = false)
  | .close stale succeeds => σ.base.isClosed = false →
    if σ.hasReactor then σ.closes stale = false → σ.hasDefaultPeer = false else succeeds = true
  | .endHandler => σ.base.isClosed = false → σ.registration ≠ .closing σ.handle
  | .setBlocking _ _ | .setNonBlocking _ _ | .removeDefaultPeer _ | .beginHandler
  | .other _ _ => True

/-- A closed socket without a default peer agrees. -/
theorem agrees_of_isClosed (hclosed : σ.base.isClosed = true) (hpeer : σ.hasDefaultPeer = false) :
    σ.Agrees := by
  refine ⟨fun hopen => ?_, fun _ => hpeer⟩
  rw [hclosed] at hopen
  cases hopen

/-- The descriptor of an open socket has another mode than the socket says. -/
def Differs (σ : State) : Prop :=
  σ.base.isClosed = false ∧
    ∃ description, σ.kernel σ.handle = some description ∧
      description.nonBlocking ≠ σ.isNonBlocking

/-- A socket whose mode differs does not agree. -/
theorem Differs.not_agrees (h : σ.Differs) : ¬ σ.Agrees := by
  obtain ⟨hopen, description, hdescription, hne⟩ := h
  intro hagrees
  rw [hagrees.opened hopen] at hdescription
  exact hne (congrArg Description.nonBlocking (Option.some.inj hdescription)).symm

/-- An assigned descriptor agrees if it has the mode of the socket and nothing is left of an earlier
descriptor. -/
theorem Assigned.agrees_iff {nonBlocking : Bool}
    (h : Assigned (σ.setKernel fd (some { nonBlocking })) fd τ) :
    τ.Agrees ↔ (σ.registers || σ.isNonBlocking) = nonBlocking ∧ σ.isBound = false ∧
      σ.hasDefaultPeer = false := by
  have hdescription : τ.kernel τ.handle = some { nonBlocking } := by
    rw [h.handle, h.kernel, setKernel_kernel_self]
  have hbound : τ.isBound = σ.isBound := isBound_of_setOpen h.state
  have hmode : τ.isNonBlocking = (σ.registers || σ.isNonBlocking) := h.isNonBlocking
  have hpeer : τ.hasDefaultPeer = σ.hasDefaultPeer := h.hasDefaultPeer
  have hcached : some ({ nonBlocking } : Description) = some τ.cached ↔
      (σ.registers || σ.isNonBlocking) = nonBlocking ∧ σ.isBound = false ∧
        σ.hasDefaultPeer = false := by
    rw [Option.some.injEq, cached, Description.mk.injEq, hmode, hbound, hpeer]
    exact and_congr eq_comm (and_congr eq_comm eq_comm)
  rw [← hcached, ← hdescription]
  constructor
  · intro hagrees
    exact hagrees.opened h.isClosed
  · intro heq
    refine ⟨fun _ => heq, fun hclosed => ?_⟩
    rw [h.isClosed] at hclosed
    cases hclosed

/-- An assigned descriptor of the other mode. -/
theorem Assigned.differs {nonBlocking : Bool}
    (h : Assigned (σ.setKernel fd (some { nonBlocking })) fd τ)
    (hmode : (σ.registers || σ.isNonBlocking) ≠ nonBlocking) : τ.Differs := by
  refine ⟨h.isClosed, { nonBlocking }, ?_, ?_⟩
  · rw [h.handle, h.kernel, setKernel_kernel_self]
  · rw [h.isNonBlocking]
    exact hmode.symm

/-- A closed socket that stays closed. -/
theorem Agrees.of_closed (h : σ.Agrees) (hclosed : σ.base.isClosed = true)
    (hstate : τ.base.basicSocketState = σ.base.basicSocketState)
    (hpeer : τ.hasDefaultPeer = σ.hasDefaultPeer) : τ.Agrees := by
  refine agrees_of_isClosed ?_ (hpeer.trans (h.closed hclosed))
  simpa only [BasicSocket.isClosed, hstate] using hclosed

/-- `TryOpenSocket()` with the flags of the socket. -/
theorem Agrees.tryOpenSocket (h : σ.Agrees) (hflag : σ.OpensAsFlagged opening) :
    (σ.tryOpenSocket opening).Agrees := by
  unfold State.tryOpenSocket doOpenSocket
  split
  · rename_i hclosed
    split
    · exact h
    · rename_i fd hfd
      rcases assigned_or_failed (σ.setKernel fd (some { nonBlocking := σ.hasReactor })) fd
        opening.tag with hassigned | ⟨-, hstate, hpeer⟩
      · refine hassigned.agrees_iff.mpr ⟨?_, isBound_of_isClosed hclosed, h.closed hclosed⟩
        rcases hflag hclosed (by simp [hfd]) with hregisters | hmode
        · -- only a socket with a reactor registers
          have hreactor : σ.hasReactor = true := (Bool.and_eq_true_iff.mp hregisters).1
          simp [hregisters, hreactor]
        · cases hregisters : σ.registers with
          | false => simpa using hmode
          | true => simpa using (Bool.and_eq_true_iff.mp hregisters).1.symm
      · exact h.of_closed hclosed hstate hpeer
  · exact h

/-- `TryOpenSocket()` with another flag. -/
theorem differs_tryOpenSocket (hflag : ¬ σ.OpensAsFlagged opening) :
    (σ.tryOpenSocket opening).Differs := by
  simp only [OpensAsFlagged, not_forall, not_or] at hflag
  obtain ⟨hclosed, hfd, hregisters, hmode⟩ := hflag
  obtain ⟨fd, hfd⟩ := Option.isSome_iff_exists.mp hfd
  simp only [State.tryOpenSocket, doOpenSocket, hclosed, ↓reduceIte, hfd]
  rcases assigned_or_failed (σ.setKernel fd (some { nonBlocking := σ.hasReactor })) fd
    opening.tag with hassigned | ⟨hregisters', -⟩
  · refine hassigned.differs ?_
    simpa [hregisters] using hmode
  · exact absurd hregisters' hregisters

/-! ## The other calls -/

section SystemCall

variable {ρ : State} {effect : Description → Description} {keep : State → State}

/-- A call on the descriptor whose effect the socket keeps. -/
theorem Agrees.systemCall (h : σ.Agrees) (hcall : σ.systemCall succeeds effect = some τ)
    (hopen : σ.base.isClosed = false) (hopen' : ρ.base.isClosed = false)
    (hhandle : ρ.handle = τ.handle) (hkernel : ρ.kernel = τ.kernel)
    (hcached : ρ.cached = effect σ.cached) : ρ.Agrees := by
  obtain ⟨description, hdescription, rfl⟩ := systemCall_eq_some hcall
  rw [h.opened hopen] at hdescription
  obtain rfl := Option.some.inj hdescription
  refine ⟨fun _ => ?_, fun hclosed => ?_⟩
  · rw [hkernel, hhandle, hcached]
    exact Function.update_self ..
  · rw [hopen'] at hclosed
    cases hclosed

/-- A call on the descriptor that leaves its mode. -/
theorem Differs.systemCall (h : σ.Differs) (hcall : σ.systemCall succeeds effect = some τ)
    (hopen' : ρ.base.isClosed = false) (hhandle : ρ.handle = τ.handle)
    (hkernel : ρ.kernel = τ.kernel) (hmode : ρ.isNonBlocking = σ.isNonBlocking)
    (heffect : ∀ description, (effect description).nonBlocking = description.nonBlocking) :
    ρ.Differs := by
  obtain ⟨-, description, hdescription, hne⟩ := h
  obtain ⟨description', hdescription', rfl⟩ := systemCall_eq_some hcall
  rw [hdescription] at hdescription'
  obtain rfl := Option.some.inj hdescription'
  refine ⟨hopen', effect description, ?_, ?_⟩
  · rw [hkernel, hhandle]
    exact Function.update_self ..
  · rw [heffect, hmode]
    exact hne

/-- A call that opens the socket first agrees exactly if the opening does. -/
theorem Agrees.callOpened_iff (h : σ.Agrees) (hkeep : Follows effect keep) :
    ((σ.tryOpenSocket opening).callOpened matching succeeds effect keep).Agrees ↔
      σ.OpensAsFlagged opening := by
  have hagrees : σ.OpensAsFlagged opening → (σ.tryOpenSocket opening).Agrees := h.tryOpenSocket
  have hdiffers : ¬ σ.OpensAsFlagged opening → (σ.tryOpenSocket opening).Differs :=
    differs_tryOpenSocket
  revert hagrees hdiffers
  generalize σ.tryOpenSocket opening = τ
  intro hagrees hdiffers
  have hunchanged : τ.Agrees ↔ σ.OpensAsFlagged opening :=
    ⟨fun hτ => by_contra fun hflag => (hdiffers hflag).not_agrees hτ, hagrees⟩
  unfold callOpened
  split
  · rename_i hcond
    have hopen : τ.base.isClosed = false := by
      simpa using (Bool.and_eq_true_iff.mp hcond).1
    split
    · rename_i ρ hcall
      obtain ⟨description, -, hρ⟩ := systemCall_eq_some hcall
      have hbase : ρ.base = τ.base := by rw [hρ]
      have hopen' : (keep ρ).base.isClosed = false := hkeep.isClosed ρ (hbase ▸ hopen)
      constructor
      · intro hkept
        refine by_contra fun hflag => ?_
        refine Differs.not_agrees (Differs.systemCall (hdiffers hflag) hcall hopen' (hkeep.handle ρ)
          (hkeep.kernel ρ) ?_ hkeep.mode) hkept
        rw [hkeep.isNonBlocking, hρ]
      · intro hflag
        refine (hagrees hflag).systemCall hcall hopen hopen' (hkeep.handle ρ) (hkeep.kernel ρ) ?_
        rw [hkeep.cached, hρ]
        rfl
    · exact hunchanged
  · exact hunchanged

theorem Agrees.bind_iff (h : σ.Agrees) :
    (σ.bind opening matching succeeds).Agrees ↔ σ.OpensAsFlagged opening := by
  unfold State.bind
  split
  · rename_i hbound
    refine iff_of_true h fun hclosed => ?_
    rw [isBound_of_isClosed hclosed] at hbound
    cases hbound
  · exact h.callOpened_iff follows_setBound

theorem Agrees.setDefaultPeer_iff (h : σ.Agrees) :
    (σ.setDefaultPeer opening matching succeeds).Agrees ↔ σ.OpensAsFlagged opening :=
  h.callOpened_iff follows_setPeer

/-- `RemoveDefaultPeer()` agrees. -/
theorem Agrees.removeDefaultPeer (h : σ.Agrees) : (σ.removeDefaultPeer succeeds).Agrees := by
  unfold State.removeDefaultPeer
  split
  · rename_i hpeer
    have hopen : σ.base.isClosed = false := by
      refine Bool.eq_false_iff.mpr fun hclosed => ?_
      rw [h.closed hclosed] at hpeer
      cases hpeer
    split
    · rename_i ρ hcall
      obtain ⟨description, -, hρ⟩ := systemCall_eq_some hcall
      refine h.systemCall hcall hopen ?_ rfl rfl ?_
      · rw [hρ]
        exact hopen
      · rw [hρ]
        rfl
    · exact h
  · exact h

/-- Changing the mode agrees. -/
theorem Agrees.toggle (h : σ.Agrees) (enable gets sets : Bool) :
    (σ.toggleNonBlockingModeInternal enable gets sets).Agrees := by
  unfold toggleNonBlockingModeInternal
  split
  · exact h
  · rename_i hclosed
    have hopen : σ.base.isClosed = false := by simpa using hclosed
    split
    · exact h
    · rename_i description hdescription
      rw [h.opened hopen] at hdescription
      obtain rfl := Option.some.inj hdescription
      split
      · exact h
      split
      · -- the descriptor has the mode already
        rename_i hmode
        obtain ⟨henable, hcached⟩ := Bool.and_eq_true_iff.mp hmode
        have hsame : σ.isNonBlocking = enable := by
          rw [Bool.not_eq_true'] at henable hcached
          exact hcached.trans henable.symm
        rw [← hsame]
        exact h
      · split
        · rename_i ρ hcall
          obtain ⟨description, -, hρ⟩ := systemCall_eq_some hcall
          refine h.systemCall hcall hopen ?_ rfl rfl ?_
          · rw [hρ]
            exact hopen
          · rw [hρ]
            rfl
        · exact h

end SystemCall

theorem Agrees.setBlocking (h : σ.Agrees) (gets sets : Bool) :
    (σ.setBlocking gets sets).Agrees := by
  unfold State.setBlocking
  split
  · exact h.toggle false gets sets
  · exact h

theorem Agrees.setNonBlocking (h : σ.Agrees) (gets sets : Bool) :
    (σ.setNonBlocking gets sets).Agrees := by
  unfold State.setNonBlocking
  split
  · exact h
  · exact h.toggle true gets sets

/-- The assignment of an accepted handle. -/
theorem Agrees.assignAcceptedHandle_iff (h : σ.Agrees) (hhandle : σ.HasHandle) :
    ((σ.setKernel fd (some { nonBlocking := true })).assignNativeHandle fd tag).Agrees ↔
      σ.registers = true ∨ σ.isNonBlocking = true ∧
        (σ.base.isClosed = false → σ.isBound = false ∧ σ.hasDefaultPeer = false) := by
  have hclosed := hhandle.isClosed
  have hplain : σ.base.isClosed = true → σ.isBound = false ∧ σ.hasDefaultPeer = false :=
    fun hclosed => ⟨isBound_of_isClosed hclosed, h.closed hclosed⟩
  rcases assigned_or_failed (σ.setKernel fd (some { nonBlocking := true })) fd tag with
    hassigned | ⟨hregisters, hstate, hpeer⟩
  · rw [hassigned.agrees_iff, Bool.or_eq_true]
    constructor
    · rintro ⟨hregisters | hmode, hleft⟩
      · exact .inl hregisters
      · exact .inr ⟨hmode, fun _ => hleft⟩
    · rintro (hregisters | ⟨hmode, hleft⟩)
      · exact ⟨.inl hregisters, hplain (hclosed hregisters)⟩
      · refine ⟨.inr hmode, ?_⟩
        cases hopen : σ.base.isClosed with
        | true => exact hplain hopen
        | false => exact hleft hopen
  · exact iff_of_true (h.of_closed (hclosed hregisters) hstate hpeer) (.inl hregisters)

/-- An open socket that only forgets its default peer. -/
theorem Agrees.forgetPeer_iff (h : σ.Agrees) (hopen : σ.base.isClosed = false)
    (hbase : τ.base = σ.base) (hmode : τ.isNonBlocking = σ.isNonBlocking)
    (hpeer : τ.hasDefaultPeer = false) (hkernel : τ.kernel = σ.kernel) :
    τ.Agrees ↔ σ.hasDefaultPeer = false := by
  have hopen' : τ.base.isClosed = false := hbase ▸ hopen
  have hcached : τ.cached = { σ.cached with peer := false } := by
    simp only [cached, hmode, hpeer, isBound, hbase]
  have hdescription : τ.kernel τ.handle = some σ.cached := by
    rw [hkernel, handle, hbase]
    exact h.opened hopen
  constructor
  · intro hagrees
    have heq := hagrees.opened hopen'
    rw [hdescription, hcached, Option.some.injEq] at heq
    exact congrArg Description.peer heq
  · intro hnone
    refine ⟨fun _ => ?_, fun _ => hpeer⟩
    rw [hdescription, hcached, cached, hnone]

/-- `Close()` agrees if it closes the socket, or the socket had no default peer. -/
theorem Agrees.close_iff (h : σ.Agrees) (stale : Deregistration) :
    (σ.close stale succeeds).Agrees ↔ σ.Keeps (.close stale succeeds) := by
  unfold State.close Keeps
  split
  · rename_i hclosed
    refine iff_of_true h fun hopen => ?_
    rw [hclosed] at hopen
    cases hopen
  · rename_i hclosed
    have hopen : σ.base.isClosed = false := by simpa using hclosed
    simp only [hopen, forall_const]
    split
    · cases hregistration : σ.registration with
      | idle fd =>
        simp only [closes, hregistration, Bool.true_eq_false, false_implies, iff_true]
        exact agrees_of_isClosed rfl rfl
      | executing fd =>
        simp only [closes, hregistration, forall_const]
        exact h.forgetPeer_iff hopen rfl rfl rfl rfl
      | closing fd =>
        simp only [closes, hregistration, forall_const]
        exact h.forgetPeer_iff hopen rfl rfl rfl rfl
      | none =>
        cases stale with
        | failed =>
          simp only [closes, hregistration, reduceCtorEq, decide_false, forall_const]
          exact h.forgetPeer_iff hopen rfl rfl rfl rfl
        | inUse =>
          simp only [closes, hregistration, reduceCtorEq, decide_false, forall_const]
          exact h.forgetPeer_iff hopen rfl rfl rfl rfl
        | free =>
          simp only [closes, hregistration, decide_true, Bool.true_eq_false, false_implies,
            iff_true]
          exact agrees_of_isClosed rfl rfl
    · cases succeeds with
      | true =>
        simp only [↓reduceIte, iff_true]
        exact agrees_of_isClosed rfl rfl
      | false =>
        simp only [Bool.false_eq_true, ↓reduceIte, iff_false]
        -- the socket stays open without a descriptor
        intro hagrees
        have heq := hagrees.opened hopen
        simp [setKernel, handle] at heq

/-- A descriptor that is not the one of an open socket changes. -/
theorem Agrees.setKernel_of_ne (h : σ.Agrees) {description : Option Description}
    (hne : σ.base.isClosed = false → σ.handle ≠ fd) : (σ.setKernel fd description).Agrees := by
  refine ⟨fun hopen => ?_, h.closed⟩
  exact (setKernel_kernel_of_ne σ (hne hopen) description).trans (h.opened hopen)

/-- The end of a handler agrees, unless it closes the descriptor of the open socket. -/
theorem Agrees.endHandler_iff (h : σ.Agrees) (hstep : σ.step .endHandler = some τ) :
    τ.Agrees ↔ σ.Keeps .endHandler := by
  simp only [step] at hstep
  split at hstep
  · rename_i fd hregistration
    obtain rfl := Option.some.inj hstep
    refine iff_of_true ⟨h.opened, h.closed⟩ ?_
    simp [Keeps, hregistration]
  · rename_i fd hregistration
    obtain rfl := Option.some.inj hstep
    simp only [Keeps, hregistration, ne_eq, Registration.closing.injEq]
    constructor
    · rintro hagrees hopen rfl
      have hnone := hagrees.opened hopen
      simp [setKernel, handle] at hnone
    · intro hkeeps
      exact Agrees.setKernel_of_ne (σ := { σ with registration := .none }) ⟨h.opened, h.closed⟩
        fun hopen heq => hkeeps hopen heq.symm
  all_goals cases hstep

/-- A step from a state that agrees leads to one exactly if it meets the condition. -/
theorem Agrees.step_iff (h : σ.Agrees) (hhandle : σ.HasHandle) {a : Action}
    (hstep : σ.step a = some τ) : τ.Agrees ↔ σ.Keeps a := by
  cases a with
  | openSocket opening =>
    obtain ⟨-, ⟨⟩⟩ := Option.ite_none_right_eq_some.mp hstep
    refine ⟨fun hagrees => ?_, h.tryOpenSocket⟩
    exact by_contra fun hflag => (differs_tryOpenSocket hflag).not_agrees hagrees
  | bind opening matching succeeds =>
    obtain ⟨-, ⟨⟩⟩ := Option.ite_none_right_eq_some.mp hstep
    exact h.bind_iff
  | setDefaultPeer opening matching succeeds =>
    obtain ⟨-, ⟨⟩⟩ := Option.ite_none_right_eq_some.mp hstep
    exact h.setDefaultPeer_iff
  | assignAcceptedHandle fd tag =>
    obtain ⟨-, ⟨⟩⟩ := Option.ite_none_right_eq_some.mp hstep
    exact h.assignAcceptedHandle_iff hhandle
  | close stale succeeds =>
    obtain rfl := Option.some.inj hstep
    exact h.close_iff stale
  | setBlocking gets sets =>
    obtain rfl := Option.some.inj hstep
    exact iff_of_true (h.setBlocking gets sets) trivial
  | setNonBlocking gets sets =>
    obtain rfl := Option.some.inj hstep
    exact iff_of_true (h.setNonBlocking gets sets) trivial
  | removeDefaultPeer succeeds =>
    obtain rfl := Option.some.inj hstep
    exact iff_of_true h.removeDefaultPeer trivial
  | beginHandler =>
    simp only [step] at hstep
    split at hstep
    · obtain rfl := Option.some.inj hstep
      exact iff_of_true ⟨h.opened, h.closed⟩ trivial
    all_goals cases hstep
  | endHandler => exact h.endHandler_iff hstep
  | other fd description =>
    obtain ⟨howns, ⟨⟩⟩ := Option.ite_none_left_eq_some.mp hstep
    refine iff_of_true (h.setKernel_of_ne fun hopen heq => ?_) trivial
    exact howns (.inl ⟨hopen, heq⟩)

end State

/-! ## Main result -/

/-- In a run of a socket, with or without a reactor, the socket agrees with the kernel at all times
if and only if: it is opened as non-blocking as its flag says, unless it registers; it is given an
accepted handle only if it registers, or says to be non-blocking and has nothing left of an earlier
descriptor; `Close()` closes it, or it has no default peer; and no handler that returns closes its
descriptor. -/
theorem cached_state_agrees_iff (hasReactor : Bool) (kernel : NativeHandle → Option Description)
    (as : List Action) :
    machine.Along (fun _ _ τ => τ.Agrees) { hasReactor, kernel } as ↔
      machine.Along (fun σ a _ => σ.Keeps a) { hasReactor, kernel } as := by
  refine Machine.along_iff_of_invariant (I := fun σ => σ.Agrees ∧ σ.HasHandle)
    ⟨State.agrees_of_isClosed rfl rfl, State.hasHandle_of_isClosed rfl⟩ ?_ ?_
  · rintro σ a τ ⟨hagrees, hhandle⟩ hstep
    exact hagrees.step_iff hhandle hstep
  · rintro σ a τ ⟨-, hhandle⟩ hstep hagrees
    exact ⟨hagrees, hhandle.step hstep⟩

/-- A socket without a reactor that was made non-blocking says so after it is opened again, and its
new descriptor is blocking. -/
example : (machine.run Machine.Always { hasReactor := false, kernel := fun _ => none }
    [.openSocket ⟨some 3, none⟩, .setNonBlocking true true, .close .free true,
      .openSocket ⟨some 4, none⟩]).map (fun σ => (σ.cached, σ.kernel σ.handle)) =
    some ({ nonBlocking := true }, some { nonBlocking := false }) := by
  decide

end Asrt.Socket.KernelAgreement
